-- Threads that wake the server up, in any order with what happens on its own thread. A wakeup is
-- a write to the second descriptor of the pair, and the callback for a readable file is the one
-- place where the first descriptor is read.
import Jrpc.Channel
import Jrpc.Delivery
import Jrpc.Handlers
import Jrpc.Server

open heap runs channel
open jrpc.json jrpc.message jrpc.queue jrpc.connection jrpc.protocol jrpc.server

namespace jrpc.threads

variable {T H : Type}

/-! ## The threads -/

/-- The pair of sockets, and the thread that runs the server. -/
structure Setting (T H : Type) where
  headers : Headers
  env : service.Env H
  fd : Int32 × Int32
  thread : T

/-- The server, the channel from the second descriptor to the first one, whether the first one
was handed to libwebsockets, and the descriptor that a callback is about to read. -/
structure State (T H : Type) where
  host : server.State H
  channel : Channel T Bytes
  adopted : Bool
  reading : Option Int32

/-- One move of a thread. The thread of the server calls the server or is called back, and each
thread wakes the server up. A wakeup in a handler is a move of its own, beside the callback. A
read is one too, so that other threads come between the callback and its read. -/
inductive Move (T H : Type)
  | wakeup (thread : T)
  | resume (thread : T)
  | interrupt (thread : T)
  | serve (act : Act H)
  | read

inductive Trace (T : Type)
  | note (note : Note T)
  | seen (seen : Seen)

def noteOf : Trace T → Option (Note T)
  | .note note => some note
  | .seen _ => none

/-- What happened to the channel. -/
def log (hist : List (Trace T)) : List (Note T) := hist.filterMap noteOf

/-- The descriptor that a callback reads. -/
def readIn : List Seen → Option Int32
  | [] => none
  | .callback (.read fd) :: _ => some fd
  | _ :: out => readIn out

def adopts (fd : Int32) : Seen → Bool
  | .callback (.adopt x) => x == fd
  | _ => false

/-- A callback for a readable file that the protocol handles, with or without a session. -/
def handlesRx : Act H → Bool
  | .input (.callback ⟨_, .raw_rx_file, _, true⟩) => true
  | _ => false

def isHandled : Move T H → Bool
  | .serve act => handlesRx act
  | _ => false

/-- The callbacks for a readable file that were handled. The last of them may be about to read. -/
def handled (moves : List (Move T H)) : Nat := moves.countP isHandled

/-- The thread of the server waits in a write, or is about to read. -/
def busy (e : Setting T H) (s : State T H) : Bool :=
  (s.channel.waiting e.thread).isSome || s.reading.isSome

/-- The callback for a readable file comes when the first descriptor was handed over and can be
read. The server is not disposed while threads use it. -/
def mayServe (s : State T H) : Act H → Bool
  | .wakeup => false
  | .dispose => false
  | .input (.callback ⟨_, .raw_rx_file, _, _⟩) => s.adopted && decide s.channel.Readable
  | _ => true

def step [DecidableEq T] (e : Setting T H) (s : State T H) :
    Move T H → Except Fault (State T H × List (Trace T))
  | .wakeup t =>
    if (s.channel.waiting t).isSome ∨ (t = e.thread ∧ s.reading.isSome) then .error .misuse
    else
      match s.host.block with
      | none => .error .misuse
      | some server =>
        let (fd, data) := jrpc_server_wakeup server
        if fd = e.fd.2 then
          .ok ({ s with channel := s.channel.write t data },
            if s.channel.Full then [] else [.note (.wrote t)])
        else .error .misuse
  | .resume t =>
    match s.channel.resume t with
    | none => .error .misuse
    | some channel => .ok ({ s with channel }, [.note (.wrote t)])
  | .interrupt t =>
    match s.channel.interrupt t with
    | none => .error .misuse
    | some channel => .ok ({ s with channel }, [.note (.failed t)])
  | .serve act =>
    if busy e s || !mayServe s act then .error .misuse
    else do
      let (host, out) ← server.step e.headers e.env s.host act
      .ok ({ s with host, adopted := s.adopted || out.any (adopts e.fd.1), reading := readIn out },
        out.map .seen)
  | .read =>
    if s.reading = some e.fd.1 then
      match s.channel.read with
      | none => .error .misuse
      | some (_, channel) => .ok ({ s with channel, reading := none }, [.note .taken])
    else .error .misuse

/-- A server that was just created, with its pair. -/
def start (e : Setting T H) (memory : JrpcServer H) (address : Nat) (fails : Bool)
    (world : World H) (capacity : Nat) (positive : 0 < capacity) : State T H :=
  ⟨created (some memory) address (some e.fd) fails world, .empty capacity positive, false, none⟩

/-! ## The invariant -/

structure Inv (e : Setting T H) (s : State T H) (hist : List (Trace T)) : Prop where
  alive : ∃ server, s.host.block = some server ∧ server.protocol.fd = e.fd
  follows : Follows s.channel (log hist)
  reading : ∀ fd, s.reading = some fd → fd = e.fd.1 ∧ s.channel.Readable
  apart : (s.channel.waiting e.thread).isSome → s.reading = none
  waiting : (s.channel.waiting e.thread).isSome → s.channel.Full

theorem inv_start (e : Setting T H) (memory : JrpcServer H) (address : Nat) (fails : Bool)
    (world : World H) (capacity : Nat) (positive : 0 < capacity) :
    Inv e (start e memory address fails world capacity positive) [] where
  alive := ⟨_, rfl, rfl⟩
  follows := follows_empty capacity positive
  reading fd hfd := by cases hfd
  apart hw := by cases hw
  waiting hw := by cases hw

theorem log_append (hist out : List (Trace T)) : log (hist ++ out) = log hist ++ log out :=
  List.filterMap_append

theorem log_seen (out : List Seen) : log (out.map (.seen : Seen → Trace T)) = [] := by
  unfold log
  rw [List.filterMap_map]
  apply List.filterMap_eq_nil_iff.mpr
  intro e he
  rfl

theorem readIn_mem {out : List Seen} {fd : Int32} (h : readIn out = some fd) :
    .callback (.read fd) ∈ out := by
  fun_induction readIn out with
  | case1 => cases h
  | case2 x out =>
    cases h
    exact List.mem_cons_self
  | case3 e out _ ih => exact List.mem_cons_of_mem e (ih h)

/-- What is read in an act of the server comes from the callback for a readable file, and is read
from the first descriptor of the pair. -/
theorem act_reads {e : Setting T H} {s : State T H} {srv : JrpcServer H} {act : Act H}
    {host : server.State H} {out : List Seen} (hblock : s.host.block = some srv)
    (hmay : mayServe s act = true) (h : server.step e.headers e.env s.host act = .ok (host, out))
    {fd : Int32} (hfd : readIn out = some fd) :
    fd = srv.protocol.fd.1 ∧ s.channel.Readable := by
  have hmem := readIn_mem hfd
  obtain ⟨⟨block, world⟩, channel, adopted, reading⟩ := s
  simp only at hblock
  subst hblock
  cases act with
  | input i =>
    obtain ⟨⟨world', o⟩, hinput, h⟩ := bind_eq_ok.mp h
    cases h
    obtain ⟨event, hevent, he⟩ := List.mem_map.mp hmem
    cases he
    obtain ⟨⟨cb, rfl, hreason, _⟩, hpair⟩ := service.step_reads hinput hevent
    obtain ⟨wsi, reason, user, has_protocol⟩ := cb
    simp only at hreason
    subst hreason
    obtain ⟨_, hreadable⟩ := Bool.and_eq_true_iff.mp hmay
    exact ⟨hpair, of_decide_eq_true hreadable⟩
  | run timeout_ms created =>
    cases h
    exact absurd hmem (run_seen _ _ _ _ _)
  | wakeup => cases hmay
  | dispose => cases hmay
  | get_userdata =>
    cases h
    simp at hmem
  | _ =>
    cases h
    cases hmem

/-- An act of the server reads just when it handles a callback for a readable file. -/
theorem act_handles {e : Setting T H} {s host : server.State H} {act : Act H} {out : List Seen}
    (h : server.step e.headers e.env s act = .ok (host, out)) :
    (readIn out).isSome = handlesRx act := by
  unfold server.step at h
  split at h
  · cases h
  · have hno : (∀ fd, .callback (.read fd) ∉ out) → (readIn out).isSome = false := by
      intro hout
      rw [Option.isSome_eq_false_iff, Option.isNone_iff_eq_none, Option.eq_none_iff_forall_ne_some]
      exact fun fd hfd => hout fd (readIn_mem hfd)
    cases act with
    | input i =>
      obtain ⟨⟨world', o⟩, hinput, h⟩ := bind_eq_ok.mp h
      cases h
      by_cases hrx : handlesRx (.input i : Act H) = true
      · rw [hrx]
        unfold handlesRx at hrx
        split at hrx
        · rename_i wsi user hi
          cases hi
          obtain ⟨rest, rfl⟩ := service.step_reads_rx hinput
          rfl
        · cases hrx
      · rw [Bool.not_eq_true] at hrx
        rw [hrx]
        apply hno
        intro fd hmem
        obtain ⟨event, hevent, he⟩ := List.mem_map.mp hmem
        cases he
        obtain ⟨⟨⟨wsi, reason, user, has_protocol⟩, rfl, hreason, hp⟩, _⟩ :=
          service.step_reads hinput hevent
        simp only at hreason hp
        subst hreason hp
        cases hrx
    | run timeout_ms created =>
      cases h
      exact hno fun fd hmem => run_seen _ _ _ _ _ hmem
    | dispose =>
      cases h
      refine hno fun fd hmem => ?_
      simp [jrpc_server_dispose, jrpc_protocol_cleanup] at hmem
    | _ =>
      cases h
      rfl

variable [DecidableEq T]

/-- What each move can be. -/
inductive Next (e : Setting T H) (s : State T H) : Move T H → State T H → List (Trace T) → Prop
  | through (t : T) (x : Bytes) (room : ¬ s.channel.Full) :
    Next e s (.wakeup t) { s with channel := s.channel.push x room } [.note (.wrote t)]
  | waits (t : T) (x : Bytes) (full : s.channel.Full) (idle : t = e.thread → s.reading = none) :
    Next e s (.wakeup t) { s with channel := s.channel.setWaiting t (some x) } []
  | resumes (t : T) (x : Bytes) (room : ¬ s.channel.Full) :
    Next e s (.resume t) { s with channel := (s.channel.push x room).setWaiting t none }
      [.note (.wrote t)]
  | interrupted (t : T) (full : s.channel.Full) :
    Next e s (.interrupt t) { s with channel := s.channel.setWaiting t none } [.note (.failed t)]
  | serves (act : Act H) (host : server.State H) (adopted : Bool) (out : List Seen)
      (idle : busy e s = false) (may : mayServe s act = true)
      (acts : server.step e.headers e.env s.host act = .ok (host, out)) :
    Next e s (.serve act) { s with host, adopted, reading := readIn out } (out.map .seen)
  | reads (x : Bytes) (channel : Channel T Bytes) (reading : s.reading = some e.fd.1)
      (takes : s.channel.read = some (x, channel)) :
    Next e s .read { s with channel, reading := none } [.note .taken]

theorem step_next {e : Setting T H} {s s' : State T H} {out : List (Trace T)} {move : Move T H}
    (h : step e s move = .ok (s', out)) : Next e s move s' out := by
  cases move with
  | wakeup t =>
    simp only [step] at h
    split at h
    · cases h
    · rename_i hidle
      split at h
      · cases h
      · rename_i srv hblock
        split at h
        · by_cases hfull : s.channel.Full
          · rw [if_pos hfull, Channel.write_full hfull] at h
            cases h
            refine .waits t _ hfull fun ht => ?_
            by_contra hreading
            exact hidle (.inr ⟨ht, Option.isSome_iff_ne_none.mpr hreading⟩)
          · rw [if_neg hfull, Channel.write_room hfull] at h
            cases h
            exact .through t _ hfull
        · cases h
  | resume t =>
    simp only [step] at h
    split at h
    · cases h
    · rename_i channel hresume
      cases h
      obtain ⟨x, room, _, rfl⟩ := Channel.resume_some hresume
      exact .resumes t x room
  | interrupt t =>
    simp only [step] at h
    split at h
    · cases h
    · rename_i channel hinterrupt
      cases h
      obtain ⟨full, rfl⟩ := Channel.interrupt_some hinterrupt
      exact .interrupted t full
  | serve act =>
    simp only [step] at h
    split at h
    · cases h
    · rename_i hok
      obtain ⟨⟨host, o⟩, hact, h⟩ := bind_eq_ok.mp h
      cases h
      simp only [Bool.or_eq_true, Bool.not_eq_true', not_or, Bool.not_eq_true,
        Bool.not_eq_false] at hok
      exact .serves act host _ o hok.1 hok.2 hact
  | read =>
    simp only [step] at h
    split at h
    · rename_i hreading
      split at h
      · cases h
      · rename_i x channel hread
        cases h
        exact .reads x channel hreading hread
    · cases h

theorem step_inv {e : Setting T H} {s s' : State T H} {hist out : List (Trace T)} {move : Move T H}
    (h : Inv e s hist) (hs : step e s move = .ok (s', out)) : Inv e s' (hist ++ out) := by
  obtain ⟨srv, hblock, hpair⟩ := h.alive
  -- with room in the channel, the thread of the server does not wait
  have hnone : ¬ s.channel.Full → s.channel.waiting e.thread = none := by
    intro hroom
    by_contra hw
    exact hroom (h.waiting (Option.isSome_iff_ne_none.mpr hw))
  cases step_next hs with
  | through t x room =>
    refine ⟨⟨srv, hblock, hpair⟩, ?_, ?_, h.apart, ?_⟩
    · rw [log_append]
      exact h.follows.push t x room
    · exact fun fd hfd => ⟨(h.reading fd hfd).1, s.channel.push_readable x room⟩
    · intro hw
      rw [Channel.push_waiting, hnone room] at hw
      cases hw
  | waits t x full idle =>
    refine ⟨⟨srv, hblock, hpair⟩, ?_, h.reading, ?_, fun _ => full⟩
    · rw [List.append_nil]
      exact h.follows.setWaiting t (some x)
    · intro hw
      by_cases ht : t = e.thread
      · exact idle ht
      · rw [Channel.setWaiting_waiting, if_neg (Ne.symm ht)] at hw
        exact h.apart hw
  | resumes t x room =>
    refine ⟨⟨srv, hblock, hpair⟩, ?_, ?_, ?_, ?_⟩
    · rw [log_append]
      exact (h.follows.push t x room).setWaiting t none
    · exact fun fd hfd => ⟨(h.reading fd hfd).1, s.channel.push_readable x room⟩
    · exact fun hw => h.apart (Channel.setWaiting_none hw)
    · intro hw
      have hwaits := Channel.setWaiting_none hw
      rw [Channel.push_waiting, hnone room] at hwaits
      cases hwaits
  | interrupted t full =>
    refine ⟨⟨srv, hblock, hpair⟩, ?_, h.reading, ?_, fun _ => full⟩
    · rw [log_append]
      exact h.follows.failed t full
    · exact fun hw => h.apart (Channel.setWaiting_none hw)
  | serves act host adopted o idle may acts =>
    have hidle : s.channel.waiting e.thread = none := by
      unfold busy at idle
      simpa using (Bool.or_eq_false_iff.mp idle).1
    have hwaits : ¬ (s.channel.waiting e.thread).isSome := by
      rw [hidle]
      exact Bool.false_ne_true
    refine ⟨?_, ?_, ?_, fun hw => absurd hw hwaits, fun hw => absurd hw hwaits⟩
    · obtain ⟨⟨block, world⟩, channel, _, _⟩ := s
      simp only at hblock
      subst hblock
      have hkept : act ≠ .dispose := by
        rintro rfl
        cases may
      obtain ⟨srv', hblock', hpair'⟩ := step_pair hkept acts
      exact ⟨srv', hblock', hpair'.trans hpair⟩
    · rw [log_append, log_seen, List.append_nil]
      exact h.follows
    · intro fd hfd
      obtain ⟨hfst, hreadable⟩ := act_reads hblock may acts hfd
      exact ⟨by rw [hfst, hpair], hreadable⟩
  | reads x channel reading takes =>
    have hwaits : ¬ (channel.waiting e.thread).isSome := by
      rw [(Channel.read_some takes).2.1]
      intro hw
      rw [h.apart hw] at reading
      cases reading
    refine ⟨⟨srv, hblock, hpair⟩, ?_, ?_, fun hw => absurd hw hwaits, fun hw => absurd hw hwaits⟩
    · rw [log_append]
      exact h.follows.read takes
    · intro fd hfd
      cases hfd

/-- The invariant holds in every state that is reached. -/
theorem run_inv {e : Setting T H} {memory : JrpcServer H} {address : Nat} {fails : Bool}
    {world : World H} {capacity : Nat} {positive : 0 < capacity} {moves : List (Move T H)}
    {s : State T H} {hist : List (Trace T)}
    (hr : run (step e) (start e memory address fails world capacity positive) moves =
      .ok (s, hist)) : Inv e s hist :=
  run_invariant (Inv e) (fun _ _ _ _ _ h hs => step_inv h hs) (h := [])
    (inv_start e memory address fails world capacity positive) hr

/-- A move handles a callback for a readable file, or ends one with its read. -/
theorem step_handled {e : Setting T H} {s s' : State T H} {out : List (Trace T)} {move : Move T H}
    (hs : step e s move = .ok (s', out)) :
    (log out).countP Note.isTaken + (if s'.reading.isSome then 1 else 0) =
      (if s.reading.isSome then 1 else 0) + if isHandled move then 1 else 0 := by
  cases step_next hs with
  | serves act host adopted o idle may acts =>
    have hreading : s.reading.isSome = false := (Bool.or_eq_false_iff.mp idle).2
    have hreads := act_handles acts
    rcases hrx : handlesRx act with _ | _
    · rw [hrx] at hreads
      simp [isHandled, log_seen, hreading, hreads, hrx]
    · rw [hrx] at hreads
      simp [isHandled, log_seen, hreading, hreads, hrx]
  | reads x channel reading takes => simp [log, noteOf, Note.isTaken, isHandled, reading]
  | _ => simp [log, noteOf, Note.isTaken, isHandled]

theorem run_handled {e : Setting T H} {memory : JrpcServer H} {address : Nat} {fails : Bool}
    {world : World H} {capacity : Nat} {positive : 0 < capacity} {moves : List (Move T H)}
    {s : State T H} {hist : List (Trace T)}
    (hr : run (step e) (start e memory address fails world capacity positive) moves =
      .ok (s, hist)) :
    (log hist).countP Note.isTaken + (if s.reading.isSome then 1 else 0) = handled moves := by
  have hstart : (log ([] : List (Trace T))).countP Note.isTaken +
      (if (start e memory address fails world capacity positive).reading.isSome then 1 else 0) =
        handled ([] : List (Move T H)) := rfl
  refine run_invariant_inputs (fun moves s hist => (log hist).countP Note.isTaken +
    (if s.reading.isSome then 1 else 0) = handled moves) ?_ hstart hr
  intro moves s hist move s' out hcount hs
  have hmove := step_handled hs
  unfold handled at hcount ⊢
  rw [log_append, List.countP_append, List.countP_append, List.countP_singleton]
  omega

/-! ## No wakeup is lost -/

/-- A thread that does not wait can always wake the server up: its write goes to the pair. -/
theorem wakeup_enabled {e : Setting T H} {s : State T H} {hist : List (Trace T)}
    (h : Inv e s hist) {t : T} (hidle : s.channel.waiting t = none)
    (hreading : t = e.thread → s.reading = none) :
    ∃ s' out, step e s (.wakeup t) = .ok (s', out) := by
  obtain ⟨srv, hblock, hpair⟩ := h.alive
  have hok : ¬ ((s.channel.waiting t).isSome ∨ (t = e.thread ∧ s.reading.isSome)) := by
    rintro (hw | ⟨ht, hr⟩)
    · rw [hidle] at hw
      cases hw
    · rw [hreading ht] at hr
      cases hr
  have hfd : (jrpc_server_wakeup srv).1 = e.fd.2 := congrArg Prod.snd hpair
  simp only [step, if_neg hok, hblock, hfd, if_true]
  exact ⟨_, _, rfl⟩

/-- A callback that is about to read finds something to be read. -/
theorem read_enabled {e : Setting T H} {s : State T H} {hist : List (Trace T)} (h : Inv e s hist)
    {fd : Int32} (hfd : s.reading = some fd) :
    ∃ s', step e s .read = .ok (s', [.note .taken]) := by
  obtain ⟨rfl, hreadable⟩ := h.reading fd hfd
  obtain ⟨x, channel, hread⟩ := Channel.read_of_readable hreadable
  simp only [step, hfd, if_true, hread]
  exact ⟨_, rfl⟩

/-- In every state that is reached: when a write of a wakeup is over, and no callback has read
since, the first descriptor can be read. What is unread is what was written, without what the
callbacks for a readable file took: one element each, but for a callback that is about to read.
No read of a callback waits. -/
theorem no_lost_wakeup (e : Setting T H) (memory : JrpcServer H) (address : Nat) (fails : Bool)
    (world : World H) (capacity : Nat) (positive : 0 < capacity) {moves : List (Move T H)}
    {s : State T H} {hist : List (Trace T)}
    (hr : run (step e) (start e memory address fails world capacity positive) moves =
      .ok (s, hist)) :
    (∀ before note after, log hist = before ++ note :: after →
      (∀ n ∈ note :: after, n.isTaken = false) → s.channel.Readable) ∧
    s.channel.items.length + (log hist).countP Note.isTaken = (log hist).countP Note.isWrote ∧
    s.channel.items.length + handled moves =
      (log hist).countP Note.isWrote + (if s.reading.isSome then 1 else 0) ∧
    ∀ fd, s.reading = some fd →
      fd = e.fd.1 ∧ ∃ s', step e s .read = .ok (s', [.note .taken]) := by
  have h := run_inv hr
  have hbalance := h.follows.balance
  have hhandled := run_handled hr
  refine ⟨?_, hbalance, by omega, ?_⟩
  · intro before note after hlog hnone
    apply h.follows.signal
    rw [hlog]
    exact signalled_of_split hnone
  · exact fun fd hfd => ⟨(h.reading fd hfd).1, read_enabled h hfd⟩

/-- A server with two threads: its own one, and another one. -/
def sampleSetting : Setting Bool Unit := ⟨sampleHeaders, service.sample [], (3, 4), true⟩

/-- The callback for a readable file, with the storage of a session of its own. -/
def readableFile : Move Bool Unit :=
  .serve (.input (.callback ⟨9, .raw_rx_file, some 9, true⟩))

/-- The other thread wakes the server up twice before there is a context. The second write waits
and fails. Then the server runs, is called back and reads, and it is woken up and called back once
more. -/
def sampleMoves : List (Move Bool Unit) :=
  [.wakeup false, .wakeup false, .interrupt false, .serve (.run 0 (some 1)),
    .serve (.input (.callback ⟨9, .protocol_init, none, true⟩)), readableFile, .read,
    .wakeup false, readableFile]

theorem no_lost_wakeup_sample :
    ∃ s hist, run (step sampleSetting) (start sampleSetting (sampleMemory (0, 0) none) 1 false
        service.sampleStart 1 Nat.one_pos) sampleMoves = .ok (s, hist) ∧
      handled sampleMoves = 2 ∧ s.channel.Readable ∧ s.channel.items.length = 1 ∧
      ∃ s', step sampleSetting s .read = .ok (s', [.note .taken]) := by
  obtain ⟨s, hist, hrun, hlog, hreading⟩ : ∃ s hist,
      run (step sampleSetting) (start sampleSetting (sampleMemory (0, 0) none) 1 false
        service.sampleStart 1 Nat.one_pos) sampleMoves = .ok (s, hist) ∧
      log hist = [.wrote false, .failed false, .taken] ++ [.wrote false] ∧
      s.reading = some 3 := ⟨_, _, rfl, rfl, rfl⟩
  obtain ⟨hreadable, _, hcount, hread⟩ := no_lost_wakeup sampleSetting
    (sampleMemory (0, 0) none) 1 false service.sampleStart 1 Nat.one_pos hrun
  refine ⟨s, hist, hrun, rfl, hreadable _ _ _ hlog ?_, ?_, (hread 3 hreading).2⟩
  · simp [Note.isTaken]
  · have hwrote : (log hist).countP Note.isWrote = 2 := by
      rw [hlog]
      rfl
    rw [hwrote, hreading, show handled sampleMoves = 2 from rfl] at hcount
    have hone : s.channel.items.length + 2 = 3 := hcount
    omega

end jrpc.threads

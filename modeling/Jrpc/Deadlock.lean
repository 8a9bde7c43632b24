-- A server that wakes itself up. Only its own thread reads the channel, so when this thread
-- waits for room in it, nobody makes room any more. It waits just when it wakes itself up while
-- the channel is full.
import Jrpc.Threads

open heap runs channel
open jrpc.json jrpc.message jrpc.queue jrpc.connection jrpc.protocol jrpc.server

namespace jrpc.threads

variable {T H : Type} [DecidableEq T]

/-! ## The capacity -/

theorem step_capacity {e : Setting T H} {s s' : State T H} {out : List (Trace T)}
    {move : Move T H} (hs : step e s move = .ok (s', out)) :
    s'.channel.capacity = s.channel.capacity := by
  cases step_next hs with
  | reads x channel reading takes => exact (Channel.read_some takes).2.2
  | _ => rfl

theorem run_capacity {e : Setting T H} {s s' : State T H} {hist : List (Trace T)}
    {moves : List (Move T H)} (hr : run (step e) s moves = .ok (s', hist)) :
    s'.channel.capacity = s.channel.capacity :=
  run_invariant (fun s' _ => s'.channel.capacity = s.channel.capacity)
    (fun _ _ _ _ _ h hs => (step_capacity hs).trans h) (h := []) rfl hr

/-- The channel is full when as much is unread as fits in. -/
theorem run_full_iff {e : Setting T H} {memory : JrpcServer H} {address : Nat} {fails : Bool}
    {world : World H} {capacity : Nat} {positive : 0 < capacity} {moves : List (Move T H)}
    {s : State T H} {hist : List (Trace T)}
    (hr : run (step e) (start e memory address fails world capacity positive) moves =
      .ok (s, hist)) :
    ¬ s.channel.Full ↔
      (log hist).countP Note.isWrote < capacity + (log hist).countP Note.isTaken := by
  have hcapacity : s.channel.capacity = capacity := run_capacity hr
  have hbalance := (run_inv hr).follows.balance
  rw [Channel.room_iff, hcapacity]
  omega

/-! ## The thread of the server waits -/

/-- The thread of the server begins to wait only when it wakes the server up itself, and finds
the channel full. -/
theorem begins_to_wait {e : Setting T H} {s s' : State T H} {out : List (Trace T)}
    {move : Move T H} (hs : step e s move = .ok (s', out))
    (hidle : s.channel.waiting e.thread = none) :
    (s'.channel.waiting e.thread).isSome ↔ move = .wakeup e.thread ∧ s.channel.Full := by
  cases step_next hs with
  | through t x room =>
    rw [Channel.push_waiting, hidle]
    simp [room]
  | waits t x full idle =>
    rw [Channel.setWaiting_waiting]
    split
    · rename_i ht
      simp [ht, full]
    · rename_i ht
      simp [hidle, Ne.symm ht]
  | resumes t x room =>
    rw [Channel.setWaiting_waiting, Channel.push_waiting, hidle]
    simp
  | interrupted t full =>
    rw [Channel.setWaiting_waiting, hidle]
    simp
  | serves act host adopted o idle may acts =>
    rw [hidle]
    simp
  | reads x channel reading takes =>
    rw [(Channel.read_some takes).2.1, hidle]
    simp

/-- A thread of the server that waits is woken by a signal only. -/
theorem step_waits {e : Setting T H} {s s' : State T H} {hist out : List (Trace T)}
    {move : Move T H} (h : Inv e s hist) (hw : (s.channel.waiting e.thread).isSome)
    (hmove : move ≠ .interrupt e.thread) (hs : step e s move = .ok (s', out)) :
    (s'.channel.waiting e.thread).isSome := by
  have hfull := h.waiting hw
  cases step_next hs with
  | through t x room => exact absurd hfull room
  | waits t x full idle =>
    rw [Channel.setWaiting_waiting]
    split
    · rfl
    · exact hw
  | resumes t x room => exact absurd hfull room
  | interrupted t full =>
    rw [Channel.setWaiting_waiting]
    split
    · rename_i ht
      exact absurd (congrArg Move.interrupt ht).symm hmove
    · exact hw
  | serves act host adopted o idle may acts => exact hw
  | reads x channel reading takes =>
    rw [h.apart hw] at reading
    cases reading

/-- Once the thread of the server waits, it waits forever, if no signal comes. -/
theorem waits_forever {e : Setting T H} {s s' : State T H} {hist out : List (Trace T)}
    {moves : List (Move T H)} (h : Inv e s hist) (hw : (s.channel.waiting e.thread).isSome)
    (hmoves : .interrupt e.thread ∉ moves) (hr : run (step e) s moves = .ok (s', out)) :
    (s'.channel.waiting e.thread).isSome := by
  induction moves generalizing s hist out with
  | nil =>
    cases hr
    exact hw
  | cons move moves ih =>
    obtain ⟨s1, o, o', hs, hrest, _⟩ := run_cons_ok.mp hr
    rw [List.mem_cons, not_or] at hmoves
    exact ih (step_inv h hs) (step_waits h hw (Ne.symm hmoves.1) hs) hmoves.2 hrest

/-! ## When it waits -/

/-- In no state of the run does the thread of the server wait. -/
def NeverWaits (e : Setting T H) (s : State T H) (moves : List (Move T H)) : Prop :=
  ∀ before after s' hist, moves = before ++ after → run (step e) s before = .ok (s', hist) →
    s'.channel.waiting e.thread = none

/-- Each time that the thread of the server wakes the server up, less is unread than fits into the
channel. -/
def FindsRoom (e : Setting T H) (s : State T H) (capacity : Nat) (moves : List (Move T H)) :
    Prop :=
  ∀ before after s' hist, moves = before ++ .wakeup e.thread :: after →
    run (step e) s before = .ok (s', hist) →
    (log hist).countP Note.isWrote < capacity + (log hist).countP Note.isTaken

/-- The thread of the server never waits in a wakeup, just when it finds room in the channel each
time that it wakes the server up. -/
theorem server_never_waits_iff (e : Setting T H) (memory : JrpcServer H) (address : Nat)
    (fails : Bool) (world : World H) (capacity : Nat) (positive : 0 < capacity)
    {moves : List (Move T H)} {s : State T H} {hist : List (Trace T)}
    (hr : run (step e) (start e memory address fails world capacity positive) moves =
      .ok (s, hist)) :
    NeverWaits e (start e memory address fails world capacity positive) moves ↔
      FindsRoom e (start e memory address fails world capacity positive) capacity moves := by
  constructor
  · intro hnever before after s1 h1 hmoves hbefore
    rw [hmoves] at hr
    obtain ⟨s3, o3, hstep⟩ := step_of_run hr hbefore
    have hidle := hnever before _ s1 h1 hmoves hbefore
    have hafter := hnever (before ++ [.wakeup e.thread]) after s3 (h1 ++ o3)
      (by rw [hmoves, List.append_assoc]; rfl)
      (run_snoc_ok.mpr ⟨s1, h1, o3, hbefore, hstep, rfl⟩)
    rw [← run_full_iff hbefore]
    intro hfull
    have hwaits := (begins_to_wait hstep hidle).mpr ⟨rfl, hfull⟩
    rw [hafter] at hwaits
    cases hwaits
  · intro hroom before
    induction before using List.reverseRecOn with
    | nil =>
      intro after s1 h1 _ hbefore
      cases hbefore
      rfl
    | append_singleton before move ih =>
      intro after s1 h1 hmoves hbefore
      rw [List.append_assoc] at hmoves
      obtain ⟨s0, h0, o, hfirst, hstep, _⟩ := run_snoc_ok.mp hbefore
      have hidle := ih _ s0 h0 hmoves hfirst
      by_contra hw
      obtain ⟨rfl, hfull⟩ := (begins_to_wait hstep hidle).mp (Option.isSome_iff_ne_none.mpr hw)
      exact (run_full_iff hfirst).mpr (hroom before after s0 h0 hmoves hfirst) hfull

/-- A server with room for two wakeups. It wakes itself up after another thread did, so it finds
one wakeup unread. -/
theorem server_never_waits_iff_sample :
    ∃ s hist, run (step sampleSetting) (start sampleSetting (sampleMemory (0, 0) none) 1 false
        service.sampleStart 2 Nat.two_pos) [.wakeup false, .wakeup true] = .ok (s, hist) ∧
      NeverWaits sampleSetting (start sampleSetting (sampleMemory (0, 0) none) 1 false
        service.sampleStart 2 Nat.two_pos) [.wakeup false, .wakeup true] := by
  obtain ⟨s, hist, hrun⟩ : ∃ s hist, run (step sampleSetting) (start sampleSetting
      (sampleMemory (0, 0) none) 1 false service.sampleStart 2 Nat.two_pos)
      [.wakeup false, .wakeup true] = .ok (s, hist) := ⟨_, _, rfl⟩
  refine ⟨s, hist, hrun, (server_never_waits_iff sampleSetting (sampleMemory (0, 0) none) 1 false
    service.sampleStart 2 Nat.two_pos hrun).mpr ?_⟩
  intro before after s hist hmoves hbefore
  have hone : before = [.wakeup false] := by
    rcases before with _ | ⟨move, _ | ⟨move', rest⟩⟩
    · cases hmoves
    · cases hmoves
      rfl
    · simp at hmoves
  subst hone
  cases hbefore
  decide

/-! ## A burst of wakeups -/

/-- As many wakeups as fit into the channel. -/
theorem burst_fills (e : Setting T H) (memory : JrpcServer H) (address : Nat) (fails : Bool)
    (world : World H) (capacity : Nat) (positive : 0 < capacity) {n : Nat} (hn : n ≤ capacity) :
    ∃ s hist, run (step e) (start e memory address fails world capacity positive)
        (List.replicate n (.wakeup e.thread)) = .ok (s, hist) ∧
      s.channel.items.length = n ∧ s.channel.waiting e.thread = none ∧ s.reading = none := by
  induction n with
  | zero => exact ⟨_, _, rfl, rfl, rfl, rfl⟩
  | succ n ih =>
    obtain ⟨s, hist, hrun, hlength, hidle, hreading⟩ := ih (Nat.le_of_succ_le hn)
    obtain ⟨s', out, hstep⟩ := wakeup_enabled (run_inv hrun) hidle (fun _ => hreading)
    have hroom : ¬ s.channel.Full := by
      have hcapacity : s.channel.capacity = capacity := run_capacity hrun
      rw [Channel.room_iff, hcapacity, hlength]
      exact hn
    refine ⟨s', hist ++ out, ?_, ?_⟩
    · rw [List.replicate_succ', run_snoc_ok]
      exact ⟨s, hist, out, hrun, hstep, rfl⟩
    · cases step_next hstep with
      | through t x room => exact ⟨by simp [hlength], hidle, hreading⟩
      | waits t x full idle => exact absurd full hroom

/-- One wakeup more than fit into the channel, and the server waits for itself. -/
theorem burst_waits (e : Setting T H) (memory : JrpcServer H) (address : Nat) (fails : Bool)
    (world : World H) (capacity : Nat) (positive : 0 < capacity) :
    ∃ s hist, run (step e) (start e memory address fails world capacity positive)
        (List.replicate (capacity + 1) (.wakeup e.thread)) = .ok (s, hist) ∧
      (s.channel.waiting e.thread).isSome := by
  obtain ⟨s, hist, hrun, hlength, hidle, hreading⟩ :=
    burst_fills e memory address fails world capacity positive (Nat.le_refl capacity)
  obtain ⟨s', out, hstep⟩ := wakeup_enabled (run_inv hrun) hidle (fun _ => hreading)
  have hcapacity : s.channel.capacity = capacity := run_capacity hrun
  have hfull : s.channel.Full := hlength.trans hcapacity.symm
  refine ⟨s', hist ++ out, ?_, (begins_to_wait hstep hidle).mpr ⟨rfl, hfull⟩⟩
  rw [List.replicate_succ', run_snoc_ok]
  exact ⟨s, hist, out, hrun, hstep, rfl⟩

/-- Before the server runs for the first time, it wakes itself up once more than there is room
for. It waits, and goes on waiting whatever other threads do, as long as no signal comes. -/
theorem server_waits_for_itself :
    ∃ s hist, run (step sampleSetting) (start sampleSetting (sampleMemory (0, 0) none) 1 false
        service.sampleStart 1 Nat.one_pos) [.wakeup true, .wakeup true] = .ok (s, hist) ∧
      s.channel.waiting sampleSetting.thread = some [42] ∧
      ∀ moves s' hist', .interrupt true ∉ moves →
        run (step sampleSetting) s moves = .ok (s', hist') →
        (s'.channel.waiting sampleSetting.thread).isSome := by
  obtain ⟨s, hist, hrun, hw⟩ : ∃ s hist, run (step sampleSetting) (start sampleSetting
      (sampleMemory (0, 0) none) 1 false service.sampleStart 1 Nat.one_pos)
      [.wakeup true, .wakeup true] = .ok (s, hist) ∧
      s.channel.waiting sampleSetting.thread = some [42] := ⟨_, _, rfl, rfl⟩
  refine ⟨s, hist, hrun, hw, fun moves s' hist' hmoves hr => ?_⟩
  exact waits_forever (run_inv hrun) (by rw [hw]; rfl) hmoves hr

end jrpc.threads

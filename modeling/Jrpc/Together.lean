-- Everything at once: threads that wake the server up, calls that set its handlers anew while it
-- runs, and callbacks with user code. What happens on the sockets is still what the outboxes do,
-- since the relation to them speaks of no handler.
import Jrpc.Disposal
import Jrpc.Settings
import Jrpc.Threads

open heap runs channel outbox
open jrpc.json jrpc.message jrpc.queue jrpc.connection jrpc.protocol jrpc.server

namespace jrpc.server

variable {H : Type}

/-! ## Callbacks among other calls -/

def Act.inputs : Act H → List (service.Input H)
  | .input i => [i]
  | _ => []

def eventOf : Seen → Option Event
  | .callback event => some event
  | _ => none

/-- What the callbacks did. -/
def events (out : List Seen) : List Event := out.filterMap eventOf

@[simp] theorem events_append (o o' : List Seen) : events (o ++ o') = events o ++ events o' :=
  List.filterMap_append

theorem events_callback (o : List Event) : events (o.map .callback) = o := by
  unfold events
  rw [List.filterMap_map]
  exact List.filterMap_some

/-- An act that is no callback leaves the memory of the callbacks alone. -/
theorem step_no_input {headers : Headers} {env : service.Env H} {s s' : State H} {act : Act H}
    {out : List Seen} (hs : step headers env s act = .ok (s', out)) (hact : act.inputs = []) :
    s'.world = s.world ∧ events out = [] := by
  obtain ⟨block, w⟩ := s
  rcases block with _ | server
  · cases hs
  cases act with
  | input i => cases hact
  | run timeout_ms made =>
    cases hs
    refine ⟨rfl, List.filterMap_eq_nil_iff.mpr fun seen hseen => ?_⟩
    cases seen with
    | callback event => exact absurd hseen (run_seen _ _ _ _ _)
    | _ => rfl
  | dispose =>
    cases hs
    refine ⟨rfl, ?_⟩
    unfold jrpc_server_dispose
    rw [events_append]
    cases server.context <;> rfl
  | _ =>
    cases hs
    exact ⟨rfl, rfl⟩

/-- A callback is a step of the server with the handlers of that moment. -/
theorem step_input {headers : Headers} {env : service.Env H} {s s' : State H}
    {i : service.Input H} {out : List Seen} (hs : step headers env s (.input i) = .ok (s', out)) :
    ∃ server, s.block = some server ∧
      service.step (server.env env) s.world i = .ok (s'.world, events out) := by
  obtain ⟨block, w⟩ := s
  rcases block with _ | server
  · cases hs
  · obtain ⟨⟨world, o⟩, hinput, hs⟩ := bind_eq_ok.mp hs
    cases hs
    exact ⟨server, rfl, by rw [events_callback]; exact hinput⟩

/-- When all callbacks come while the same handlers are set, they are a run with these handlers. -/
theorem SetUp.callbacks {headers : Headers} (hbits : headers.Apart) {env : service.Env H}
    {fails : Bool} {address : Nat} {fd : Int32 × Int32} {user_data : Option Nat}
    {server : JrpcServer H} (h : SetUp fails address fd user_data [] server) {w : World H}
    {protocol : JrpcProtocol H} {acts : List (Act H)}
    (hsame : ∀ before i after, acts = before ++ .input i :: after →
      protocolOf address fd before = protocol) {s : State H} {out : List Seen}
    (hr : run (jrpc.server.step headers env) ⟨some server, w⟩ acts = .ok (s, out)) :
    run (service.step { env with protocol }) w (acts.flatMap Act.inputs) =
      .ok (s.world, events out) := by
  induction acts using List.reverseRecOn generalizing s out with
  | nil =>
    cases hr
    rfl
  | append_singleton acts act ih =>
    obtain ⟨s1, o, o', hbefore, hact, rfl⟩ := run_snoc_ok.mp hr
    have hstart := ih (fun before i after he => hsame before i (after ++ [act]) (by simp [he]))
      hbefore
    rw [List.flatMap_append, List.flatMap_singleton, events_append]
    refine run_append_ok.mpr ⟨_, _, _, hstart, ?_, rfl⟩
    cases act with
    | input i =>
      obtain ⟨server1, hblock, hinput⟩ := step_input hact
      have hserver := (run_setUp hbits h hbefore server1 hblock).protocol
      rw [hsame acts i [] rfl] at hserver
      unfold JrpcServer.env at hinput
      rw [hserver] at hinput
      exact run_one_ok.mpr hinput
    | _ =>
      obtain ⟨hworld, hevents⟩ := step_no_input hact rfl
      rw [hworld, hevents]
      rfl

/-! ## The outboxes -/

/-- The relation to the outboxes speaks of no handler. -/
theorem refines_env {env : service.Env H} {w : World H} {b : Outbox Conn (Addr × Bytes)}
    (h : service.Refines env w b) (server : JrpcServer H) :
    service.Refines (server.env env) w b :=
  ⟨h.coupled, h.phase, h.socket, h.pending, h.sound⟩

theorem explains_env {env : service.Env H} {server : JrpcServer H} {is : List (service.Input H)}
    {heap : MessageHeap} {b b' : Outbox Conn (Addr × Bytes)} {w : World H} {out : List Event}
    {x : List (outbox.Act Conn (Addr × Bytes))}
    (h : service.Explains (server.env env) is heap b w out x b') :
    service.Explains env is heap b w out x b' where
  replay := h.replay
  refines := ⟨h.refines.coupled, h.refines.phase, h.refines.socket, h.refines.pending,
    h.refines.sound⟩
  posted := h.posted
  delivered := h.delivered
  drains := h.drains
  compact := h.compact
  balanced := h.balanced

theorem act_explains {headers : Headers} {env : service.Env H} {s s' : State H}
    {b : Outbox Conn (Addr × Bytes)} (h : service.Refines env s.world b) {act : Act H}
    {out : List Seen} (hs : step headers env s act = .ok (s', out)) :
    ∃ x b', service.Explains env act.inputs s.world.mach.heap b s'.world (events out) x b' := by
  cases act with
  | input i =>
    obtain ⟨server, _, hinput⟩ := step_input hs
    obtain ⟨x, b', hx⟩ := service.run_explains (refines_env h server) (run_one_ok.mpr hinput)
    exact ⟨x, b', explains_env hx⟩
  | _ =>
    obtain ⟨hworld, hevents⟩ := step_no_input hs rfl
    rw [hworld, hevents]
    exact ⟨[], b, h.still rfl fun e he => (by cases he)⟩

/-- All acts of a server, whatever they set, do to the messages what the outboxes do. -/
theorem run_explains {headers : Headers} {env : service.Env H} {s s' : State H}
    {b : Outbox Conn (Addr × Bytes)} (h : service.Refines env s.world b) {acts : List (Act H)}
    {out : List Seen} (hr : run (step headers env) s acts = .ok (s', out)) :
    ∃ x b', service.Explains env (acts.flatMap Act.inputs) s.world.mach.heap b s'.world
      (events out) x b' := by
  induction acts generalizing s b out with
  | nil =>
    cases hr
    exact ⟨[], b, h.still rfl fun e he => (by cases he)⟩
  | cons act acts ih =>
    obtain ⟨s1, o, o', hs, hrest, rfl⟩ := run_cons_ok.mp hr
    obtain ⟨x, b1, hx⟩ := act_explains h hs
    obtain ⟨x', b2, hx'⟩ := ih hx.refines hrest
    rw [events_append]
    exact ⟨x ++ x', b2, hx.append hx'⟩

/-- An act ends early only when the code around the server breaks a promise. -/
theorem step_safe {headers : Headers} {env : service.Env H} {s : State H}
    {b : Outbox Conn (Addr × Bytes)} (h : service.Refines env s.world b) (act : Act H) {e : Fault}
    (he : e ≠ .misuse) : step headers env s act ≠ .error e := by
  intro hs
  obtain ⟨block, w⟩ := s
  rcases block with _ | server
  · cases hs
    exact he rfl
  cases act with
  | input i =>
    simp only [step] at hs
    rcases service.step_keeps (refines_env h server) i with hm | ⟨w1, out, x, b1, hok, _⟩
    · rw [hm] at hs
      cases hs
      exact he rfl
    · rw [hok] at hs
      cases hs
  | _ => cases hs

end jrpc.server

namespace jrpc.threads

variable {T H : Type}

/-! ## The thread of the server -/

def Move.acts : Move T H → List (Act H)
  | .serve act => [act]
  | _ => []

def seenOf : Trace T → Option Seen
  | .note _ => none
  | .seen seen => some seen

/-- What the thread of the server did. -/
def seenIn (hist : List (Trace T)) : List Seen := hist.filterMap seenOf

theorem seenIn_append (hist hist' : List (Trace T)) :
    seenIn (hist ++ hist') = seenIn hist ++ seenIn hist' := List.filterMap_append

variable [DecidableEq T]

/-- A run of all threads is a run of the server on its own thread. -/
theorem run_serves {e : Setting T H} {s s' : State T H} {moves : List (Move T H)}
    {hist : List (Trace T)} (hr : run (step e) s moves = .ok (s', hist)) :
    run (server.step e.headers e.env) s.host (moves.flatMap Move.acts) =
      .ok (s'.host, seenIn hist) := by
  refine (run_projects (fun _ => True) State.host Move.acts seenIn seenIn_append rfl
    (fun s move s' o _ hs => ⟨trivial, ?_⟩) trivial hr).2
  cases step_next hs with
  | serves act host adopted out idle may acts =>
    refine run_one_ok.mpr (acts.trans ?_)
    unfold seenIn
    rw [List.filterMap_map, show seenOf ∘ (.seen : Seen → Trace T) = some from rfl,
      List.filterMap_some]
  | _ => rfl

theorem step_safe {e : Setting T H} {s : State T H} {b : Outbox Conn (Addr × Bytes)}
    (h : service.Refines e.env s.host.world b) (move : Move T H) {fault : Fault}
    (hfault : fault ≠ .misuse) : step e s move ≠ .error fault := by
  intro hs
  cases move with
  | wakeup t =>
    simp only [step] at hs
    split at hs
    · cases hs
      exact hfault rfl
    · split at hs
      · cases hs
        exact hfault rfl
      · split at hs
        · cases hs
        · cases hs
          exact hfault rfl
  | resume t =>
    simp only [step] at hs
    split at hs
    · cases hs
      exact hfault rfl
    · cases hs
  | interrupt t =>
    simp only [step] at hs
    split at hs
    · cases hs
      exact hfault rfl
    · cases hs
  | serve act =>
    simp only [step] at hs
    split at hs
    · cases hs
      exact hfault rfl
    · rcases hact : server.step e.headers e.env s.host act with fault' | ⟨host, o⟩
      · rw [hact] at hs
        cases hs
        exact server.step_safe h act hfault hact
      · rw [hact] at hs
        cases hs
  | read =>
    simp only [step] at hs
    split at hs
    · split at hs
      · cases hs
        exact hfault rfl
      · cases hs
    · cases hs
      exact hfault rfl

/-! ## Messages -/

/-- Whatever all threads do, and whatever is set while the server runs: no message is touched after
it was disposed, and each one is disposed once when all sessions are over. To a session that is
established, what was written and then what its queue holds is what was sent, in this order, and
libwebsockets is asked for a writable callback just when there is something to write. To a session
that is over, the first of what was sent was written. -/
theorem messages_arrive_whatever_is_set (e : Setting T H) (memory : JrpcServer H) (address : Nat)
    (fails : Bool) (json : JsonStore) (oom : Nat → Bool) (user : H) (capacity : Nat)
    (positive : 0 < capacity) (moves : List (Move T H)) :
    (∀ fault, run (step e) (start e memory address fails (service.start json oom user) capacity
        positive) moves = .error fault → fault = .misuse) ∧
      ∀ s hist, run (step e) (start e memory address fails (service.start json oom user) capacity
          positive) moves = .ok (s, hist) →
        (∀ c, s.host.world.phase c = .established →
          ∃ l, Holds s.host.world.mach.heap (s.host.world.mach.conns c).messages l ∧
            service.writtenOn (e.env.wsi_of c) (events (seenIn hist)) ++ l =
              service.sentTo c (events (seenIn hist)) ∧
            (s.host.world.mach.pending (e.env.wsi_of c) = true ↔ l ≠ [])) ∧
        (∀ c, service.writtenOn (e.env.wsi_of c) (events (seenIn hist)) <+:
          service.sentTo c (events (seenIn hist))) ∧
        (∀ a, (disposed (events (seenIn hist))).count a ≤ 1) ∧
        ((∀ c, s.host.world.phase c ≠ .established) →
          ∀ a ∈ connection.created (events (seenIn hist)),
            (disposed (events (seenIn hist))).count a = 1) := by
  have hstart := service.start_refines e.env json oom user
  constructor
  · intro fault hr
    by_contra hfault
    refine run_never (fun s : State T H => ∃ b, service.Refines e.env s.host.world b) fault
      (fun s move s' o hs hstep => ?_) (fun s move hs => ?_) ⟨_, hstart⟩ hr
    · obtain ⟨b, hb⟩ := hs
      obtain ⟨x, b', hx⟩ := run_explains hb (run_serves (run_one_ok.mpr hstep))
      exact ⟨b', hx.refines⟩
    · obtain ⟨b, hb⟩ := hs
      exact step_safe hb move hfault
  · intro s hist hr
    obtain ⟨x, b, hx⟩ := run_explains (s := ⟨_, _⟩) hstart (run_serves hr)
    have h := hx.refines
    have haccounts := hx.balanced [] (service.accounts_start json oom user)
    rw [List.nil_append] at haccounts
    refine ⟨fun c hc => ⟨b.queue c, h.coupled.holds c, ?_, ?_⟩, fun c => ?_,
      haccounts.count_le_one,
      fun hclosed a ha => haccounts.all_disposed (h.no_live hclosed) ha⟩
    · have hledger := ledger_replay (k := c) rfl hx.replay
      unfold Ledger at hledger
      rw [← h.phase, hc] at hledger
      rw [← hx.delivered, ← hx.posted]
      exact hledger
    · rw [service.pending_iff h hc, List.length_pos_iff]
    · rw [← hx.delivered, ← hx.posted]
      exact delivered_prefix rfl hx.replay

/-- Two threads, and a library that knows two calls. -/
def sampleBusy : Setting Bool Unit :=
  ⟨sampleHeaders, service.sample [service.callFrame 1, service.callFrame 2], (3, 4), true⟩

/-- Two calls come. Between them the handler is set anew, and the new one does not answer. -/
def sampleCalls : List (Move Bool Unit) :=
  [.wakeup false, .serve (.run 0 (some 1)),
    .serve (.input (service.callbackFor 7 .established)),
    .serve (.input (service.receiveFrame 7 (service.callFrame 1))),
    .serve (.set_onmethod fun _ _ _ _ => .ret), .wakeup false,
    .serve (.input (service.receiveFrame 7 (service.callFrame 2))),
    .serve (.input (service.callbackFor 7 (.server_writeable 9)))]

theorem messages_arrive_whatever_is_set_sample :
    ∃ s hist,
      run (step sampleBusy) (start sampleBusy (sampleMemory (0, 0) none) 1 false
        service.sampleStart 9 (Nat.succ_pos 8)) sampleCalls = .ok (s, hist) ∧
      (service.sentTo 7 (events (seenIn hist))).length = 1 ∧
      service.writtenOn 7 (events (seenIn hist)) = service.sentTo 7 (events (seenIn hist)) := by
  have htest : runEnds (step sampleBusy)
      (start sampleBusy (sampleMemory (0, 0) none) 1 false service.sampleStart 9
        (Nat.succ_pos 8)) sampleCalls
      (fun s hist => decide (s.host.world.phase 7 = .established ∧
        s.host.world.mach.pending 7 = false ∧
        (service.sentTo 7 (events (seenIn hist))).length = 1)) = true := by decide +kernel
  obtain ⟨s, hist, hrun, htest⟩ := runEnds_spec htest
  obtain ⟨hc, hidle, hsent⟩ := of_decide_eq_true htest
  obtain ⟨l, _, horder, hpending⟩ := ((messages_arrive_whatever_is_set sampleBusy
    (sampleMemory (0, 0) none) 1 false .empty (fun _ => false) () 9 (Nat.succ_pos 8)
    sampleCalls).2 s hist hrun).1 7 hc
  have hnil : l = [] := by
    by_contra hl
    have hset : s.host.world.mach.pending 7 = true := hpending.mpr hl
    rw [hidle] at hset
    cases hset
  rw [hnil, List.append_nil] at horder
  exact ⟨s, hist, hrun, hsent, horder⟩

end jrpc.threads

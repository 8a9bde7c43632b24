-- What a step runs: the code of one handler, or none. All that a step sends is sent by this
-- code, and it calls `onmethod` or `onnotify` only when a buffer comes that is a call. The
-- `switch` of the callback is taken apart here once, and the laws are read off from it.
import Jrpc.Receive
import Jrpc.Service
import Jrpc.UserCode

open heap runs
open jrpc.json jrpc.message jrpc.queue jrpc.connection jrpc.protocol

namespace jrpc.service

variable {H : Type}

/-! ## Calls and sends -/

/-- A call of `onmethod` or `onnotify`. -/
def isCall : Event → Bool
  | .onmethod _ _ _ _ => true
  | .onnotify _ _ _ => true
  | _ => false

def calls (out : List Event) : List Event := out.filter isCall

def isSend : Event → Bool
  | .send _ _ _ => true
  | _ => false

def sends (out : List Event) : List Event := out.filter isSend

/-- The connection that a buffer comes on, and the buffer. -/
def frameIn : Input H → Option (Conn × Bytes)
  | .callback ⟨_, .receive buffer, some c, _⟩ => some (c, buffer)
  | _ => none

/-- The call that can be seen when a buffer comes. -/
def callEvent (lib : JsonLib) (c : Conn) (buffer : Bytes) : Option Event :=
  (callIn lib buffer).map (·.event c)

/-- The call that can be seen when an input comes. -/
def callOfInput (lib : JsonLib) (i : Input H) : Option Event :=
  (frameIn i).bind fun f => callEvent lib f.1 f.2

@[simp] theorem calls_append (o o' : List Event) : calls (o ++ o') = calls o ++ calls o' := by
  simp [calls]

@[simp] theorem sends_append (o o' : List Event) : sends (o ++ o') = sends o ++ sends o' := by
  simp [sends]

theorem mem_sends {out : List Event} {c : Conn} {object : Option Json}
    {message : Option (Addr × Bytes)} :
    .send c object message ∈ sends out ↔ .send c object message ∈ out := by
  simp [sends, isSend]

theorem isCall_event (c : Conn) (call : Call) : isCall (call.event c) = true := by
  unfold Call.event
  cases call.id <;> rfl

/-- An event that is neither a call nor a send. -/
def quiet (e : Event) : Bool := !isCall e && !isSend e

theorem quiet_events {out : List Event} (h : ∀ e ∈ out, quiet e = true) :
    calls out = [] ∧ sends out = [] := by
  constructor
  · apply List.filter_eq_nil_iff.mpr
    intro e he
    have hq := h e he
    simp only [quiet, Bool.and_eq_true, Bool.not_eq_true'] at hq
    rw [hq.1]
    exact Bool.false_ne_true
  · apply List.filter_eq_nil_iff.mpr
    intro e he
    have hq := h e he
    simp only [quiet, Bool.and_eq_true, Bool.not_eq_true'] at hq
    rw [hq.2]
    exact Bool.false_ne_true

theorem calls_exec {p : Platform} {prog : UserProg H} {w w' : World H} {out : List Event}
    (h : exec p prog w = .ok (w', out)) : calls out = [] := by
  apply List.filter_eq_nil_iff.mpr
  intro e he
  rcases exec_events h e he with ⟨d, object, message, rfl⟩ | ⟨wsi, rfl⟩
  · simp [isCall]
  · simp [isCall]

/-! ## The parts of a callback -/

theorem requestWritable_events {wsi : Wsi} {c : Conn} {w w' : World H} {out : List Event}
    (h : requestWritable wsi c w = .ok (w', out)) :
    w'.phase = w.phase ∧ w'.mach.oom = w.mach.oom ∧ ∀ e ∈ out, e = .on_writable wsi := by
  unfold requestWritable at h
  split at h
  · cases h
    exact ⟨rfl, rfl, fun e he => by cases he⟩
  · cases h
    exact ⟨rfl, rfl, fun e he => List.mem_singleton.mp he⟩

theorem writeFirst_events {wsi : Wsi} {result : Int32} {c : Conn} {m m' : Machine}
    {out : List Event} (h : writeFirst wsi result c m = .ok (m', out)) :
    m'.oom = m.oom ∧ ∃ message data, out = [.write wsi message data result, .dispose message] := by
  unfold writeFirst at h
  obtain ⟨⟨message, q⟩, _, h⟩ := bind_eq_ok.mp h
  dsimp only at h
  split at h
  · cases h
  · split at h
    · cases h
    · obtain ⟨heap, _, h⟩ := bind_eq_ok.mp h
      cases h
      exact ⟨rfl, _, _, rfl⟩

theorem cleanup_events {c : Conn} {m m' : Machine} {out : List Event}
    (h : jrpc_connection_cleanup c m = .ok (m', out)) :
    m'.oom = m.oom ∧ ∀ e ∈ out, ∃ message, e = .dispose message := by
  unfold jrpc_connection_cleanup at h
  obtain ⟨⟨heap, q, disposed⟩, _, h⟩ := bind_eq_ok.mp h
  cases h
  refine ⟨rfl, fun e he => ?_⟩
  obtain ⟨message, _, rfl⟩ := List.mem_map.mp he
  exact ⟨message, rfl⟩

/-! ## The code of a step -/

/-- The code that a callback runs. -/
def UserCode (lib : JsonLib) (protocol : JrpcProtocol H) (c : Conn) (reason : Reason)
    (prog : UserProg H) : Prop :=
  match reason with
  | .established => prog = protocol.onconnected c
  | .closed => prog = protocol.ondisconnected c
  | .receive buffer =>
    match callIn lib buffer with
    | some call => ∃ params, prog = call.handler protocol c params
    | none => prog = .ret
  | _ => prog = .ret

/-- The code that an input runs. -/
def InputCode (env : Env H) (prog : UserProg H) : Input H → Prop
  | .user q => prog = q
  | .callback cb =>
    match cb.user with
    | some c => UserCode env.platform.lib env.protocol c cb.reason prog
    | none => prog = .ret

/-- A part of a step ran this code. It sends what the code sends, its allocations are those of
the code, and this is the call that can be seen of it. -/
def Ran (p : Platform) (Code : UserProg H → Prop) (call : Option Event) (w w' : World H)
    (out : List Event) : Prop :=
  ∃ prog w1 w2 o, Code prog ∧ exec p prog w1 = .ok (w2, o) ∧ w1.mach.oom = w.mach.oom ∧
    w'.mach.oom = w2.mach.oom ∧ calls out = call.toList ∧ sends out = sends o

/-- A part of a step that ran no code. -/
theorem Ran.idle {p : Platform} {Code : UserProg H → Prop} {w w' : World H} {out : List Event}
    (hcode : Code .ret) (hoom : w'.mach.oom = w.mach.oom) (hout : ∀ e ∈ out, quiet e = true) :
    Ran p Code none w w' out := by
  obtain ⟨hcalls, hsends⟩ := quiet_events hout
  exact ⟨.ret, w, w, [], hcode, rfl, rfl, hoom, hcalls, hsends⟩

theorem callHandler_ran {p : Platform} {call : Event} {handler : UserProg H} {w w' : World H}
    {out : List Event} (hcall : isSend call = false)
    (h : callHandler p call handler w = .ok (w', out)) :
    w'.phase = w.phase ∧ ∃ o, exec p handler w = .ok (w', o) ∧ calls out = calls [call] ∧
      sends out = sends o := by
  refine ⟨callHandler_phase h, ?_⟩
  unfold callHandler at h
  obtain ⟨⟨w1, o⟩, he, h⟩ := bind_eq_ok.mp h
  cases h
  refine ⟨o, he, ?_, ?_⟩
  · rw [show call :: o = [call] ++ o from rfl, calls_append, calls_exec he, List.append_nil]
  · unfold sends
    rw [List.filter_cons_of_neg (by rw [hcall]; decide)]

theorem process_ran {p : Platform} {protocol : JrpcProtocol H} {c : Conn} {buffer : Bytes}
    {w w' : World H} {out : List Event}
    (h : jrpc_protocol_process p protocol c buffer w = .ok (w', out)) :
    w'.phase = w.phase ∧
      Ran p (UserCode p.lib protocol c (.receive buffer)) (callEvent p.lib c buffer) w w' out := by
  unfold callEvent
  rcases hcall : callIn p.lib buffer with _ | call
  · rw [process_no_call protocol c hcall] at h
    cases h
    refine ⟨rfl, .idle ?_ rfl (by simp)⟩
    simp [UserCode, hcall]
  · obtain ⟨json, request, params, _, hprocess⟩ := process_call protocol c hcall w
    rw [hprocess] at h
    obtain ⟨⟨w1, o⟩, he, h⟩ := bind_eq_ok.mp h
    cases h
    have hevent : isSend (call.event c) = false := by
      unfold Call.event
      cases call.id <;> rfl
    obtain ⟨hphase, o', hexec, hcalls, hsends⟩ := callHandler_ran hevent he
    refine ⟨hphase, call.handler protocol c params, _, w1, o', ?_, hexec, rfl, rfl, ?_, hsends⟩
    · simp only [UserCode, hcall]
      exact ⟨params, rfl⟩
    · rw [hcalls]
      simp [calls, isCall_event]

/-- What the `switch` of the callback runs, for each reason. It changes no phase. -/
theorem handle_ran {p : Platform} {protocol : JrpcProtocol H} {wsi : Wsi} {reason : Reason}
    {c : Conn} {w w' : World H} {out : List Event}
    (h : handle p protocol wsi reason c w = .ok (w', out)) :
    w'.phase = w.phase ∧
      Ran p (UserCode p.lib protocol c reason)
        (callOfInput p.lib (.callback ⟨wsi, reason, some c, true⟩ : Input H)) w w' out := by
  unfold handle at h
  cases reason with
  | protocol_init =>
    cases h
    exact ⟨rfl, .idle rfl rfl (by simp [quiet, isCall, isSend])⟩
  | established =>
    obtain ⟨hphase, o, hexec, hcalls, hsends⟩ := callHandler_ran rfl h
    exact ⟨hphase, protocol.onconnected c, _, w', o, rfl, hexec, rfl, rfl, hcalls, hsends⟩
  | closed =>
    obtain ⟨⟨w1, o⟩, he, h⟩ := bind_eq_ok.mp h
    obtain ⟨⟨mach, o'⟩, hclean, h⟩ := bind_eq_ok.mp h
    cases h
    obtain ⟨hphase, o1, hexec, hcalls, hsends⟩ := callHandler_ran rfl he
    obtain ⟨hoom, hdispose⟩ := cleanup_events hclean
    have hquiet : calls o' = [] ∧ sends o' = [] := by
      apply quiet_events
      intro e he
      obtain ⟨message, rfl⟩ := hdispose e he
      rfl
    refine ⟨hphase, protocol.ondisconnected c, w, w1, o1, rfl, hexec, rfl, hoom, ?_, ?_⟩
    · rw [calls_append, hcalls, hquiet.1]
      rfl
    · rw [sends_append, hsends, hquiet.2, List.append_nil]
  | receive buffer => exact process_ran h
  | server_writeable result =>
    dsimp only at h
    split at h
    · cases h
      exact ⟨rfl, .idle rfl rfl (by simp)⟩
    · obtain ⟨⟨mach, o⟩, hw, h⟩ := bind_eq_ok.mp h
      cases h
      obtain ⟨hoom, message, data, rfl⟩ := writeFirst_events hw
      exact ⟨rfl, .idle rfl hoom (by simp [quiet, isCall, isSend])⟩
  | raw_rx_file =>
    cases h
    exact ⟨rfl, .idle rfl rfl (by simp [quiet, isCall, isSend])⟩
  | other reason =>
    cases h
    exact ⟨rfl, .idle rfl rfl (by simp)⟩

/-- What a step runs. -/
theorem step_ran {env : Env H} {w w' : World H} {i : Input H} {out : List Event}
    (h : step env w i = .ok (w', out)) :
    Ran env.platform (fun prog => InputCode env prog i) (callOfInput env.platform.lib i) w w'
      out := by
  cases i with
  | user prog => exact ⟨prog, w, w', out, rfl, h, rfl, rfl, calls_exec h, rfl⟩
  | callback cb =>
    have hok := deliverable_of_step h
    obtain ⟨ha, rfl, rfl⟩ | ⟨c, w1, w2, o, o', hu, hp, he, ht, rfl, rfl⟩ := step_cases h
    · obtain ⟨wsi, reason, user, has_protocol⟩ := cb
      have hnone : callOfInput env.platform.lib
          (.callback ⟨wsi, reason, user, has_protocol⟩ : Input H) = none := by
        rcases ha with rfl | rfl
        · cases reason <;> rfl
        · cases user <;> cases reason <;> first | rfl | simp [Deliverable] at hok
      rw [hnone]
      apply Ran.idle _ rfl
      · cases has_protocol <;> cases reason <;> simp [handleNull, quiet, isCall, isSend]
      · rcases ha with rfl | rfl
        · rfl
        · cases user <;> cases reason <;> first | rfl | simp [Deliverable] at hok
    · obtain ⟨wsi, reason, user, has_protocol⟩ := cb
      simp only at hu hp
      subst hu hp
      obtain ⟨_, hoom, hrequest⟩ := requestWritable_events ht
      have hquiet : calls (o' ++ [.returned 0]) = [] ∧ sends (o' ++ [.returned 0]) = [] := by
        apply quiet_events
        intro e he
        rcases List.mem_append.mp he with he | he
        · rw [hrequest e he]
          rfl
        · rw [List.mem_singleton.mp he]
          rfl
      obtain ⟨_, prog, v1, v2, o1, hcode, hexec, hbefore, hafter, hcalls, hsends⟩ :=
        handle_ran he
      refine ⟨prog, v1, v2, o1, hcode, hexec, hbefore.trans ?_, ?_, ?_, ?_⟩
      · cases reason <;> rfl
      · rw [← hafter, ← hoom]
        cases reason <;> rfl
      · rw [List.append_assoc, calls_append, hquiet.1, List.append_nil]
        exact hcalls
      · rw [List.append_assoc, sends_append, hquiet.2, List.append_nil]
        exact hsends

/-! ## What follows for each step -/

/-- A step calls the handler of its buffer, if it has one. -/
theorem step_calls {env : Env H} {w w' : World H} {i : Input H} {out : List Event}
    (h : step env w i = .ok (w', out)) :
    calls out = (callOfInput env.platform.lib i).toList := by
  obtain ⟨_, _, _, _, _, _, _, _, hcalls, _⟩ := step_ran h
  exact hcalls

theorem step_plenty {env : Env H} {w w' : World H} {i : Input H} {out : List Event}
    (hw : Plenty w.mach) (h : step env w i = .ok (w', out)) : Plenty w'.mach := by
  obtain ⟨prog, w1, w2, o, _, hexec, hbefore, hafter, _⟩ := step_ran h
  have hw1 : Plenty w1.mach := by
    intro n
    rw [hbefore]
    exact hw n
  intro n
  rw [hafter]
  exact exec_plenty hexec hw1 n

/-- A handler reads from no descriptor. -/
theorem callHandler_reads {p : Platform} {call : Event} {handler : UserProg H} {w w' : World H}
    {out : List Event} (hcall : ∀ fd, call ≠ .read fd)
    (h : callHandler p call handler w = .ok (w', out)) (fd : Int32) : .read fd ∉ out := by
  unfold callHandler at h
  obtain ⟨⟨w1, o⟩, hexec, h⟩ := bind_eq_ok.mp h
  cases h
  intro he
  rcases List.mem_cons.mp he with he | he
  · exact hcall fd he.symm
  · rcases exec_events hexec _ he with ⟨d, object, message, he⟩ | ⟨wsi, he⟩
    · cases he
    · cases he

theorem process_reads {p : Platform} {protocol : JrpcProtocol H} {c : Conn} {buffer : Bytes}
    {w w' : World H} {out : List Event}
    (h : jrpc_protocol_process p protocol c buffer w = .ok (w', out)) (fd : Int32) :
    .read fd ∉ out := by
  rcases hcall : callIn p.lib buffer with _ | call
  · rw [process_no_call protocol c hcall] at h
    cases h
    exact List.not_mem_nil
  · obtain ⟨json, request, params, _, hprocess⟩ := process_call protocol c hcall w
    rw [hprocess] at h
    obtain ⟨⟨w1, o⟩, he, h⟩ := bind_eq_ok.mp h
    cases h
    apply callHandler_reads _ he
    intro fd
    unfold Call.event
    cases call.id <;> simp

theorem handle_reads {p : Platform} {protocol : JrpcProtocol H} {wsi : Wsi} {reason : Reason}
    {c : Conn} {w w' : World H} {out : List Event}
    (h : handle p protocol wsi reason c w = .ok (w', out)) {fd : Int32} (he : .read fd ∈ out) :
    reason = .raw_rx_file ∧ fd = protocol.fd.1 := by
  unfold handle at h
  cases reason with
  | protocol_init =>
    cases h
    simp at he
  | established => exact absurd he (callHandler_reads (by simp) h fd)
  | closed =>
    obtain ⟨⟨w1, o⟩, hhandler, h⟩ := bind_eq_ok.mp h
    obtain ⟨⟨mach, o'⟩, hclean, h⟩ := bind_eq_ok.mp h
    cases h
    rcases List.mem_append.mp he with he | he
    · exact absurd he (callHandler_reads (by simp) hhandler fd)
    · obtain ⟨message, he⟩ := (cleanup_events hclean).2 _ he
      cases he
  | receive buffer => exact absurd he (process_reads h fd)
  | server_writeable result =>
    dsimp only at h
    split at h
    · cases h
      cases he
    · obtain ⟨⟨mach, o⟩, hw, h⟩ := bind_eq_ok.mp h
      cases h
      obtain ⟨_, message, data, rfl⟩ := writeFirst_events hw
      simp at he
  | raw_rx_file =>
    cases h
    exact ⟨rfl, Event.read.inj (List.mem_singleton.mp he)⟩
  | other reason =>
    cases h
    cases he

/-- A step reads from a descriptor only when a file is readable, and then from the first one of
the pair. -/
theorem step_reads {env : Env H} {w w' : World H} {i : Input H} {out : List Event}
    (h : step env w i = .ok (w', out)) {fd : Int32} (he : .read fd ∈ out) :
    (∃ cb, i = .callback cb ∧ cb.reason = .raw_rx_file ∧ cb.has_protocol = true) ∧
      fd = env.protocol.fd.1 := by
  cases i with
  | user prog =>
    rcases exec_events h _ he with ⟨d, object, message, he⟩ | ⟨wsi, he⟩
    · cases he
    · cases he
  | callback cb =>
    obtain ⟨_, _, rfl⟩ | ⟨c, w1, w2, o, o', _, hp, hhandle, ht, _, rfl⟩ := step_cases h
    · obtain ⟨wsi, reason, user, has_protocol⟩ := cb
      cases has_protocol with
      | false => simp at he
      | true =>
        cases reason with
        | raw_rx_file =>
          refine ⟨⟨_, rfl, rfl, rfl⟩, ?_⟩
          simpa [handleNull] using he
        | _ => simp [handleNull] at he
    · obtain ⟨_, _, hrequest⟩ := requestWritable_events ht
      rw [List.mem_append, List.mem_append] at he
      rcases he with (he | he) | he
      · obtain ⟨hreason, hfd⟩ := handle_reads hhandle he
        exact ⟨⟨cb, rfl, hreason, hp⟩, hfd⟩
      · cases hrequest _ he
      · simp at he

/-- Each callback for a readable file reads, with or without a session. -/
theorem step_reads_rx {env : Env H} {w w' : World H} {wsi : Wsi} {user : Option Conn}
    {out : List Event}
    (h : step env w (.callback ⟨wsi, .raw_rx_file, user, true⟩) = .ok (w', out)) :
    ∃ rest, out = .read env.protocol.fd.1 :: rest := by
  obtain ⟨_, _, rfl⟩ | ⟨c, w1, w2, o, o', _, _, hhandle, _, _, rfl⟩ := step_cases h
  · exact ⟨[.returned 0], rfl⟩
  · cases hhandle
    exact ⟨o' ++ [.returned 0], rfl⟩

/-- When no allocation fails from the start on, none fails after a run. -/
theorem run_plenty {env : Env H} {w w' : World H} {is : List (Input H)} {out : List Event}
    (hw : Plenty w.mach) (h : run (step env) w is = .ok (w', out)) : Plenty w'.mach :=
  run_invariant (fun w _ => Plenty w.mach) (fun _ _ _ _ _ hw h => step_plenty hw h) (h := []) hw h

/-- What a step sends was made by a call that its code may make. -/
theorem step_made {env : Env H} {w w' : World H} {i : Input H} {out : List Event}
    {P : Conn → Send → Prop} (hP : ∀ prog, InputCode env prog i → AllSends P prog)
    (h : step env w i = .ok (w', out)) {c : Conn} {object : Option Json}
    {message : Option (Addr × Bytes)} (he : .send c object message ∈ out) :
    ∃ call m, P c call ∧ MadeBy env.platform c call m object message ∧
      (Plenty w.mach → Plenty m) := by
  obtain ⟨prog, w1, w2, o, hcode, hexec, hbefore, _, _, hsends⟩ := step_ran h
  have ho : .send c object message ∈ o := by
    rw [← mem_sends, ← hsends, mem_sends]
    exact he
  obtain ⟨call, m, hcall, hmade, hplenty⟩ := exec_sends (hP prog hcode) hexec ho
  refine ⟨call, m, hcall, hmade, fun hw => hplenty fun n => ?_⟩
  rw [hbefore]
  exact hw n

/-- A callback changes the phase of its own session only. -/
theorem step_phase {env : Env H} {w w' : World H} {i : Input H} {out : List Event} {d : Conn}
    (h : step env w i = .ok (w', out)) (hd : ∀ cb, i = .callback cb → cb.user ≠ some d) :
    w'.phase d = w.phase d := by
  cases i with
  | user prog => rw [exec_phase h]
  | callback cb =>
    obtain ⟨_, rfl, _⟩ | ⟨c, w1, w2, o, o', hu, hp, he, ht, rfl, _⟩ := step_cases h
    · rfl
    · obtain ⟨wsi, reason, user, has_protocol⟩ := cb
      simp only at hu hp
      subst hu hp
      have hne : d ≠ c := fun he => hd _ rfl (by rw [he])
      have hbefore : (beforeCallback ⟨wsi, reason, some c, true⟩ w).phase d = w.phase d := by
        cases reason <;> simp [beforeCallback, Function.update_of_ne hne]
      have hafter : (afterCallback ⟨wsi, reason, some c, true⟩ w2).phase d = w2.phase d := by
        cases reason <;> simp [afterCallback, Function.update_of_ne hne]
      rw [hafter, (requestWritable_events ht).1, (handle_ran he).1, hbefore]

theorem run_phase {env : Env H} {w w' : World H} {is : List (Input H)} {out : List Event}
    {d : Conn} (h : run (step env) w is = .ok (w', out))
    (hd : ∀ cb, .callback cb ∈ is → cb.user ≠ some d) : w'.phase d = w.phase d := by
  induction is generalizing w out with
  | nil =>
    cases h
    rfl
  | cons i is ih =>
    obtain ⟨w1, o, o', hstep, hrest, _⟩ := run_cons_ok.mp h
    rw [ih hrest (fun cb hcb => hd cb (List.mem_cons_of_mem i hcb))]
    exact step_phase hstep (fun cb he => hd cb (he ▸ List.mem_cons_self))

end jrpc.service

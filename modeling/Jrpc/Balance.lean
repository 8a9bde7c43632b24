-- References are given up once. A call that sends takes one reference to its argument and
-- leaves nothing else in the store, whatever fails on the way. A request that was received is
-- given up in whole, when its handler left it as it found it.
import Jrpc.Frames
import Jrpc.Receive
import Jrpc.Release

open heap runs
open jrpc.json jrpc.message jrpc.queue jrpc.connection jrpc.protocol

namespace jrpc.service

variable {H : Type}

/-! ## Calls that send -/

/-- The value whose reference a call takes over. -/
def argumentOf : Send → Option JsonRef
  | .respond result _ => result
  | .respond_error _ _ _ => none
  | .notify _ params => params

/-- The inner object of an error leaves nothing behind. -/
theorem errorHolder_release (lib : JsonLib) (oom : Nat → Bool) (error_code : Int32)
    (error_message : Bytes) {s : JsonStore} (hs : Fenced s.nodes.next s) :
    json_decref (errorHolder lib oom error_code error_message s).2
      (errorHolder lib oom error_code error_message s).1 = s := by
  have hcode : (Part.leaf (oom 1) (.integer error_code.toInt64)).Fits s.nodes.next := ⟨_, rfl⟩
  have hmessage : (Part.leaf (oom 3 || !lib.utf8 error_message)
    (.string error_message)).Fits s.nodes.next := ⟨_, rfl⟩
  unfold errorHolder
  rw [buildPair_release hs hcode hmessage (by decide) (.inl rfl)]
  exact giveUp_nil s

/-- The object that a call builds gives up just the argument when it is given up. -/
theorem object_release {p : Platform} {call : Send} {m : Machine}
    (hvalid : Send.ValidIn m.json call) :
    json_decref (call.object p m) (call.ready p m).json = json_decref (argumentOf call) m.json := by
  cases call with
  | respond result id =>
    have hs := fenced_of_closed hvalid.1
    have hfit1 : (Part.given result).Fits m.json.nodes.next := below_of_live hvalid.2
    have hfit2 : (Part.leaf (m.oom 2) (.integer id.toInt64)).Fits m.json.nodes.next := ⟨_, rfl⟩
    show json_decref (responseObject m.oom result id m.json).2
      (responseObject m.oom result id m.json).1 = json_decref result m.json
    rw [responseObject_eq, buildPair_release hs hfit1 hfit2 (by decide) (.inr rfl), json_decref_eq]
    simp only [Part.refs, List.append_nil]
  | respond_error code message id =>
    obtain ⟨hs, hbelow⟩ :=
      errorHolder_spec p.lib m.oom code message (fenced_of_closed hvalid)
    have hfit1 : (Part.given (errorHolder p.lib m.oom code message m.json).2).Fits
      (errorHolder p.lib m.oom code message m.json).1.nodes.next := hbelow
    have hfit2 : (Part.leaf (m.oom 7) (.integer id.toInt64)).Fits
      (errorHolder p.lib m.oom code message m.json).1.nodes.next := ⟨_, rfl⟩
    show json_decref (errorObject p.lib m.oom code message id m.json).2
      (errorObject p.lib m.oom code message id m.json).1 = m.json
    rw [errorObject_eq, buildPair_release hs hfit1 hfit2 (by decide) (.inr rfl)]
    simp only [Part.refs, List.append_nil]
    rw [← json_decref_eq]
    exact errorHolder_release p.lib m.oom code message (fenced_of_closed hvalid)
  | notify method params =>
    have hs := fenced_of_closed hvalid.1
    have hfit1 : (Part.leaf (m.oom 1 || !p.lib.utf8 method)
      (.string method)).Fits m.json.nodes.next := ⟨_, rfl⟩
    have hfit2 : (Part.given params).Fits m.json.nodes.next := below_of_live hvalid.2
    show json_decref (notificationObject p.lib m.oom method params m.json).2
      (notificationObject p.lib m.oom method params m.json).1 = json_decref params m.json
    rw [notificationObject_eq, buildPair_release hs hfit1 hfit2 (by decide) (.inl rfl),
      json_decref_eq]
    simp only [Part.refs, List.nil_append]

/-- What a call leaves in the store. One reference to the argument was given up, and that is
all: the counts are right again, nothing is there that was not there before, and no reference
was given up that nobody held. -/
structure Settles (s s' : JsonStore) (argument : Option JsonRef) (held : List JsonRef) : Prop where
  released : s' = json_decref argument s
  counted : Counted s' held
  lowered : ∀ a, argument = some (.node a) → s'.count a + 1 = s.count a
  created : Extends s' s
  underflow : s'.underflow = s.underflow

theorem settles_decref {s : JsonStore} {argument : Option JsonRef} {held : List JsonRef}
    (h : Counted s (argument.toList ++ held)) :
    Settles s (json_decref argument s) argument held := by
  have hrest := giveUp_counted argument.toList h
  rw [← json_decref_eq] at hrest
  refine ⟨rfl, hrest.1, ?_, ?_, hrest.2⟩
  · rintro a rfl
    have hlive : s.Live (.node a) := h.live List.mem_cons_self
    have hcount := h a
    rw [Option.toList_some, List.singleton_append, List.count_cons_self] at hcount
    rw [json_decref_count hlive]
    omega
  · rw [json_decref_eq]
    exact giveUp_extends _ _

/-- With right counts, a call may be made with what is held. -/
theorem validIn_of_counted {s : JsonStore} {call : Send} {held : List JsonRef}
    (h : Counted s ((argumentOf call).toList ++ held)) : Send.ValidIn s call := by
  have hlive : LiveArg s (argumentOf call) := by
    rcases harg : argumentOf call with _ | r
    · trivial
    · apply h.live
      rw [harg]
      exact List.mem_cons_self
  cases call with
  | respond result id => exact ⟨h.closed, hlive⟩
  | respond_error code message id => exact h.closed
  | notify method params => exact ⟨h.closed, hlive⟩

/-- A call that sends settles its argument. -/
theorem call_settles {env : Env H} {w : World H} {b : outbox.Outbox Conn (Addr × Bytes)}
    (h : Refines env w b) {c : Conn} (hc : w.phase c = .established) {call : Send}
    {held : List JsonRef} (hcount : Counted w.mach.json ((argumentOf call).toList ++ held)) :
    ∃ mach out, call.run env.platform c w.mach = .ok (mach, out) ∧
      Settles w.mach.json mach.json (argumentOf call) held := by
  obtain ⟨mach, hrun, hs⟩ := Send.run_spec env.platform call h.coupled (h.socket c hc)
  refine ⟨mach, _, hrun, ?_⟩
  rw [hs.json, object_release (validIn_of_counted hcount)]
  exact settles_decref hcount

/-! ## Requests -/

/-- The nodes of a request have the counts and the references that they were loaded with. -/
def Untouched (v : Json) (s t : JsonStore) : Prop :=
  Alike s.nodes.next (load v s).1.nodes.next t (load v s).1

/-- The nodes of a request have the counts that they were loaded with. -/
def CountsKept (v : Json) (s t : JsonStore) : Prop :=
  ∀ a < (load v s).1.nodes.next, s.nodes.next ≤ a → t.count a = (load v s).1.count a

instance (v : Json) (s t : JsonStore) : Decidable (CountsKept v s t) :=
  inferInstanceAs (Decidable (∀ a < (load v s).1.nodes.next, s.nodes.next ≤ a →
    t.count a = (load v s).1.count a))

theorem Untouched.counts_kept {v : Json} {s t : JsonStore} (h : Untouched v s t) :
    CountsKept v s t := by
  intro a hhi hlo
  have hshape := congrArg (Option.map Prod.fst) (h a hlo hhi)
  rw [Option.map_map, Option.map_map] at hshape
  exact congrArg (·.getD 0) hshape

/-- The nodes of a request are gone, and every other node is as it was. -/
def Dropped (v : Json) (s t t' : JsonStore) : Prop :=
  Cleared s.nodes.next (load v s).1.nodes.next t t'

/-- A buffer that is no call changes nothing. For a call, the handler runs with the loaded
request, and when it leaves the request untouched, then the nodes of the request are dropped
from what it leaves. -/
def GivesBack (p : Platform) (protocol : JrpcProtocol H) (c : Conn) (buffer : Bytes)
    (w : World H) : Prop :=
  (callIn p.lib buffer = none → jrpc_protocol_process p protocol c buffer w = .ok (w, [])) ∧
  ∀ v call, p.lib.loads buffer = some v → callOf v = some call →
    ∃ params, (load v w.mach.json).1.read params = some call.params ∧
      ∀ w' out, exec p (call.handler protocol c params) (w.setJson (load v w.mach.json).1) =
          .ok (w', out) →
        Untouched v w.mach.json w'.mach.json →
        ∃ json, jrpc_protocol_process p protocol c buffer w =
            .ok (w'.setJson json, call.event c :: out) ∧
          Dropped v w.mach.json w'.mach.json json

theorem process_gives_back (p : Platform) (protocol : JrpcProtocol H) (c : Conn) (buffer : Bytes)
    (w : World H) : GivesBack p protocol c buffer w := by
  refine ⟨fun h => process_no_call protocol c h w, ?_⟩
  intro v call hload hcall
  obtain ⟨params, hread, hprocess⟩ := process_loaded protocol c hload hcall w
  refine ⟨params, hread, ?_⟩
  intro w' out hexec halike
  refine ⟨_, ?_, decref_alike v w.mach.json halike⟩
  rw [hprocess]
  unfold callHandler
  rw [hexec, ok_bind]
  rfl

/-- In every state that a run reaches, a call that sends settles its argument, whatever
allocations fail. In every state of every server, a request that its handler left untouched is
dropped, and nothing else changes. -/
theorem references_balance (env : Env H) (json : JsonStore) (oom : Nat → Bool) (user : H)
    {is : List (Input H)} {w : World H} {hist : List Event}
    (hr : run (step env) (start json oom user) is = .ok (w, hist)) :
    (∀ c call held, w.phase c = .established →
      Counted w.mach.json ((argumentOf call).toList ++ held) →
      ∃ mach out, call.run env.platform c w.mach = .ok (mach, out) ∧
        Settles w.mach.json mach.json (argumentOf call) held) ∧
    ∀ (K : Type) (p : Platform) (protocol : JrpcProtocol K) (c : Conn) (buffer : Bytes)
      (w : World K), GivesBack p protocol c buffer w := by
  obtain ⟨_, b, hx⟩ := run_explains (start_refines env json oom user) hr
  refine ⟨?_, fun K p protocol c buffer w => process_gives_back p protocol c buffer w⟩
  intro c call held hc hcount
  exact call_settles hx.refines hc hcount

/-- A store with a number that an array holds twice and user code once. -/
def sharedStore : JsonStore :=
  let s := ((JsonStore.empty.new (.integer 7)).1.new (.array [.node 0, .node 0])).1
  { s with nodes := s.nodes.modify 0 fun c => { c with refcount := 3 } }

def withNumber : Send := .respond (some (.node 1)) 1

/-- A notification with no parameters. -/
def quietFrame : Json := .object [("method", .string (text "add")), ("params", .array [])]

/-- The array is settled when it cannot be inserted, and a notification is dropped after its
handler. -/
theorem references_balance_sample :
    ∃ w hist mach out json, run (step (sample [])) (start sharedStore (fun n => n == 1) ())
        [callbackFor 7 .established] = .ok (w, hist) ∧
      withNumber.run (sample []).platform 7 w.mach = .ok (mach, out) ∧
      Settles w.mach.json mach.json (some (.node 1)) [.node 0] ∧
      jrpc_protocol_process (sample [quietFrame]).platform (sample []).protocol 7
          ((print quietFrame).getD []) w =
        .ok (w.setJson json, [.onnotify 7 (text "add") (some (.array []))]) ∧
      Dropped quietFrame w.mach.json (load quietFrame w.mach.json).1 json := by
  obtain ⟨w, hist, hrun, hc, hjson⟩ : ∃ w hist,
      run (step (sample [])) (start sharedStore (fun n => n == 1) ())
        [callbackFor 7 .established] = .ok (w, hist) ∧
      w.phase 7 = .established ∧ w.mach.json = sharedStore := ⟨_, _, rfl, rfl, rfl⟩
  have hcount : Counted w.mach.json ((argumentOf withNumber).toList ++ [.node 0]) := by
    rw [hjson]
    decide +kernel
  obtain ⟨hcalls, hrequests⟩ := references_balance (sample []) _ _ () hrun
  obtain ⟨mach, out, hcall, hsettles⟩ := hcalls 7 withNumber [.node 0] hc hcount
  have hload : (sample [quietFrame]).platform.lib.loads ((print quietFrame).getD []) =
      some quietFrame := by
    obtain ⟨bytes, hbytes⟩ :=
      Option.isSome_iff_exists.mp (by decide : (print quietFrame).isSome = true)
    simp [sample, sampleLib, hbytes]
  obtain ⟨params, _, hrequest⟩ := (hrequests Unit (sample [quietFrame]).platform
    (sample []).protocol 7 ((print quietFrame).getD []) w).2 quietFrame
    ⟨text "add", .array [], none⟩ hload rfl
  obtain ⟨json, hprocess, hdropped⟩ := hrequest _ _ rfl (fun _ _ _ => rfl)
  exact ⟨w, hist, mach, out, json, hrun, hcall, hsettles, hprocess, hdropped⟩

/-! ## A handler that touches the request -/

/-- `json_array_append_new(array, json_integer(5))`. -/
def appendNumber (array : Option JsonRef) (s : JsonStore) : JsonStore :=
  match array with
  | some (.node a) =>
    { s with
      nodes := (s.new (.integer 5)).1.nodes.modify a fun c =>
        match c.node with
        | .array rs => { c with node := .array (rs ++ [.node s.nodes.next]) }
        | _ => c }
  | _ => s

/-- A handler that appends a number to its parameters. -/
def appending : JrpcProtocol Unit :=
  { (sample []).protocol with
    onmethod := fun _ _ params _ =>
      .compute (fun user s => (user, appendNumber params s)) fun _ _ => .ret }

/-- The counts of the request are as they were, and the number that the handler made is dropped
with the request. -/
theorem appended_number_is_dropped :
    ∃ w' out w'' out'' a,
      exec (sample [callFrame 1]).platform
          (appending.onmethod 7 (text "add") (some (.node 1)) 1)
          (sampleStart.setJson (load (callFrame 1) sampleStart.mach.json).1) = .ok (w', out) ∧
      CountsKept (callFrame 1) sampleStart.mach.json w'.mach.json ∧
      (load (callFrame 1) sampleStart.mach.json).1.nodes.next ≤ a ∧
      jrpc_protocol_process (sample [callFrame 1]).platform appending 7
        ((print (callFrame 1)).getD []) sampleStart = .ok (w'', out'') ∧
      w''.mach.json.count a ≠ w'.mach.json.count a := by
  refine ⟨_, _, _, _, 4, rfl, ?_, ?_, rfl, ?_⟩
  · decide +kernel
  · decide +kernel
  · decide +kernel

end jrpc.service

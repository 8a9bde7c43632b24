-- What one server sends, another one receives. A notification is read as the call that it was
-- made from, and a response is read as no call at all, whatever its result looks like.
import Jrpc.Ids

open heap runs
open jrpc.json jrpc.message jrpc.queue jrpc.connection jrpc.protocol

namespace jrpc.service

variable {H : Type}

/-! ## What a buffer makes a server do -/

/-- What the sender prints for this frame, the receiver loads as this frame. -/
def RoundTrips (sender receiver : JsonLib) (frame : Json) : Prop :=
  ∃ bytes, sender.dumps frame = some bytes ∧ receiver.loads bytes = some frame

/-- In every state of every server, the buffer calls `onnotify` once, with this method and these
parameters, and no other handler. -/
def Notifies (p : Platform) (bytes method : Bytes) (params : Json) : Prop :=
  ∀ (K : Type) (protocol : JrpcProtocol K) (d : Conn) (w : World K),
    (∃ json request r, json.read r = some params ∧
      jrpc_protocol_process p protocol d bytes w = (do
        let (w, out) ← callHandler p (.onnotify d method (some params))
          (protocol.onnotify d method (some r)) (w.setJson json)
        .ok (w.setJson (json_decref (some request) w.mach.json), out))) ∧
    ∀ w' out, jrpc_protocol_process p protocol d bytes w = .ok (w', out) →
      calls out = [.onnotify d method (some params)]

/-- In every state of every server, the buffer calls no handler and changes nothing. -/
def CallsNothing (p : Platform) (bytes : Bytes) : Prop :=
  ∀ (K : Type) (protocol : JrpcProtocol K) (d : Conn) (w : World K),
    jrpc_protocol_process p protocol d bytes w = .ok (w, [])

theorem notifies_of_callIn {p : Platform} {bytes method : Bytes} {params : Json}
    (h : callIn p.lib bytes = some ⟨method, params, none⟩) : Notifies p bytes method params := by
  intro K protocol d w
  obtain ⟨json, request, r, hread, hprocess⟩ := process_call protocol d h w
  refine ⟨⟨json, request, r, hread, hprocess⟩, ?_⟩
  intro w' out hrun
  rw [hprocess] at hrun
  obtain ⟨⟨w1, o⟩, hhandler, hrun⟩ := bind_eq_ok.mp hrun
  cases hrun
  unfold callHandler at hhandler
  obtain ⟨⟨w2, o'⟩, hexec, hhandler⟩ := bind_eq_ok.mp hhandler
  cases hhandler
  unfold calls
  rw [List.filter_cons_of_pos rfl, show o'.filter isCall = [] from calls_exec hexec]
  rfl

theorem callsNothing_of_callIn {p : Platform} {bytes : Bytes} (h : callIn p.lib bytes = none) :
    CallsNothing p bytes := by
  intro K protocol d w
  exact process_no_call protocol d h w

/-! ## Frames -/

theorem callIn_eq {lib : JsonLib} {bytes : Bytes} {frame : Json}
    (h : lib.loads bytes = some frame) : callIn lib bytes = callOf frame := by
  unfold callIn
  rw [h, Option.bind_some]

theorem callOf_notification {method : Bytes} {params : Json} (h : isContainer params = true) :
    callOf (.object [("method", .string method), ("params", params)]) =
      some ⟨method, params, none⟩ := by
  have hframe : Json.object [("method", .string method), ("params", params)] =
      twoMembers "method" (some (.string method)) "params" (some params) := rfl
  obtain ⟨hparams, hid1, hid2⟩ :
      "params" ≠ "method" ∧ "id" ≠ "method" ∧ "id" ≠ "params" := by decide
  rw [hframe]
  unfold callOf
  rw [twoMembers_get, twoMembers_get, twoMembers_get, if_pos rfl, if_neg hparams, if_pos rfl,
    if_neg hid1, if_neg hid2]
  simp [stringOf, Option.filter, h]

/-- A frame with no method is no call, whatever its members hold. -/
theorem callOf_no_method {frame : Json} (h : frame.get "method" = none) : callOf frame = none := by
  unfold callOf
  rw [h]
  rfl

/-- No response has a method, even when some of it could not be made. -/
theorem response_no_method {p : Platform} {call : Send} {m : Machine} {frame : Json}
    (hcall : ∀ method params, call ≠ .notify method params) (hvalid : Send.ValidIn m.json call)
    (hv : (call.object p m).bind (call.ready p m).json.read = some frame) :
    frame.get "method" = none := by
  cases call with
  | respond result id =>
    obtain ⟨_, v1, v2, rfl, _⟩ :=
      responseObject_read (fenced_of_closed hvalid.1) (below_of_live hvalid.2) hv
    rw [twoMembers_get, if_neg (by decide), if_neg (by decide)]
    rfl
  | respond_error code message id =>
    obtain ⟨_, v1, v2, rfl, _⟩ := errorObject_read (fenced_of_closed hvalid) hv
    rw [twoMembers_get, if_neg (by decide), if_neg (by decide)]
    rfl
  | notify method params => exact absurd rfl (hcall method params)

/-- The frame of a call, when every call of the library succeeds. -/
def frameOf (s : JsonStore) : Send → Option Json
  | .respond result id =>
    (result.bind s.read).map fun v => .object [("result", v), ("id", .integer id.toInt64)]
  | .respond_error code message id =>
    some (.object [("error", .object [("code", .integer code.toInt64),
      ("message", .string message)]), ("id", .integer id.toInt64)])
  | .notify method params =>
    (params.bind s.read).map fun v => .object [("method", .string method), ("params", v)]

/-- The text of the call, when it has one, is UTF-8. -/
def textOk (lib : JsonLib) : Send → Bool
  | .respond _ _ => true
  | .respond_error _ message _ => lib.utf8 message
  | .notify method _ => lib.utf8 method

/-- A call that does not run out of memory builds its frame. -/
theorem object_reads {p : Platform} {call : Send} {m : Machine} {frame : Json}
    (hvalid : Send.ValidIn m.json call) (htext : textOk p.lib call = true)
    (hoom : ∀ n < call.allocations, m.oom n = false) (hframe : frameOf m.json call = some frame) :
    (call.object p m).bind (call.ready p m).json.read = some frame := by
  cases call with
  | respond result id =>
    obtain ⟨v, hv, rfl⟩ := Option.map_eq_some_iff.mp hframe
    obtain ⟨r, rfl, hread⟩ := Option.bind_eq_some_iff.mp hv
    exact responseObject_reads (fenced_of_closed hvalid.1) (below_of_live hvalid.2 r rfl) hread hoom
  | respond_error code message id =>
    cases hframe
    exact errorObject_reads (fenced_of_closed hvalid) hoom htext
  | notify method params =>
    obtain ⟨v, hv, rfl⟩ := Option.map_eq_some_iff.mp hframe
    obtain ⟨r, rfl, hread⟩ := Option.bind_eq_some_iff.mp hv
    exact notificationObject_reads (fenced_of_closed hvalid.1) (below_of_live hvalid.2 r rfl) hread
      hoom htext

/-! ## From one server to another -/

/-- The call puts these bytes at the end of the queue of the connection. -/
def Queues (env : Env H) (w : World H) (c : Conn) (call : Send) (bytes : Bytes) : Prop :=
  ∃ mach out l message, call.run env.platform c w.mach = .ok (mach, out) ∧
    Holds w.mach.heap (w.mach.conns c).messages l ∧
    Holds mach.heap (mach.conns c).messages (l ++ [(message, bytes)])

/-- What a call that built a frame puts into the queue. -/
theorem call_queues {env : Env H} {w : World H} {b : outbox.Outbox Conn (Addr × Bytes)}
    (h : Refines env w b) {c : Conn} (hc : w.phase c = .established) {call : Send} {frame : Json}
    {bytes : Bytes} (hframe : (call.object env.platform w.mach).bind
      (call.ready env.platform w.mach).json.read = some frame)
    (hbytes : env.platform.lib.dumps frame = some bytes)
    (hoom : w.mach.oom call.allocations = false) : Queues env w c call bytes := by
  obtain ⟨mach, out, hrun, hholds⟩ := call_appends h hc call
  rw [newMessage_eq hframe hbytes, hoom, if_neg Bool.false_ne_true] at hholds
  exact ⟨mach, out, b.queue c, _, hrun, h.coupled.holds c, hholds⟩

/-- The bytes that a notification puts into a queue call `onnotify` of another server with the
same method and parameters. The bytes of a response or of an error call nothing there, also when
a part of them could not be made. -/
theorem encoders_and_receiver_agree (env : Env H) (json : JsonStore) (oom : Nat → Bool) (user : H)
    (p : Platform) {is : List (Input H)} {w : World H} {hist : List Event} {c : Conn}
    (hr : run (step env) (start json oom user) is = .ok (w, hist))
    (hc : w.phase c = .established) :
    (∀ call frame, Send.ValidIn w.mach.json call → textOk env.platform.lib call = true →
      (∀ n ≤ call.allocations, w.mach.oom n = false) → frameOf w.mach.json call = some frame →
      RoundTrips env.platform.lib p.lib frame →
      ∃ bytes, Queues env w c call bytes ∧
        match call with
        | .notify method params =>
          ∀ v, params.bind w.mach.json.read = some v → isContainer v = true →
            Notifies p bytes method v
        | _ => CallsNothing p bytes) ∧
    ∀ call frame, (∀ method params, call ≠ .notify method params) →
      Send.ValidIn w.mach.json call → w.mach.oom call.allocations = false →
      (call.object env.platform w.mach).bind (call.ready env.platform w.mach).json.read =
        some frame →
      RoundTrips env.platform.lib p.lib frame →
      ∃ bytes, Queues env w c call bytes ∧ CallsNothing p bytes := by
  obtain ⟨_, b, hx⟩ := run_explains (start_refines env json oom user) hr
  have hresponse : ∀ call frame, (∀ method params, call ≠ .notify method params) →
      Send.ValidIn w.mach.json call → w.mach.oom call.allocations = false →
      (call.object env.platform w.mach).bind (call.ready env.platform w.mach).json.read =
        some frame →
      RoundTrips env.platform.lib p.lib frame →
      ∃ bytes, Queues env w c call bytes ∧ CallsNothing p bytes := by
    intro call frame hcall hvalid hoom hframe ⟨bytes, hdumps, hloads⟩
    refine ⟨bytes, call_queues hx.refines hc hframe hdumps hoom, ?_⟩
    apply callsNothing_of_callIn
    rw [callIn_eq hloads]
    exact callOf_no_method (response_no_method hcall hvalid hframe)
  refine ⟨?_, hresponse⟩
  intro call frame hvalid htext hoom hframe htrip
  have hreads := object_reads (p := env.platform) hvalid htext
    (fun n hn => hoom n (Nat.le_of_lt hn)) hframe
  have hlast := hoom call.allocations (Nat.le_refl _)
  cases call with
  | respond result id => exact hresponse _ frame (by simp) hvalid hlast hreads htrip
  | respond_error code message id => exact hresponse _ frame (by simp) hvalid hlast hreads htrip
  | notify method params =>
    obtain ⟨bytes, hdumps, hloads⟩ := htrip
    refine ⟨bytes, call_queues hx.refines hc hreads hdumps hlast, ?_⟩
    intro v hv hcontainer
    apply notifies_of_callIn
    obtain ⟨v', hv', rfl⟩ := Option.map_eq_some_iff.mp hframe
    rw [hv] at hv'
    cases hv'
    rw [callIn_eq hloads]
    exact callOf_notification hcontainer

/-! ## A result that looks like a call -/

theorem roundTrips_sample {frame : Json} (h : (print frame).isSome = true) :
    RoundTrips (sampleLib []) (sampleLib [frame]) frame := by
  obtain ⟨bytes, hbytes⟩ := Option.isSome_iff_exists.mp h
  exact ⟨bytes, hbytes, by simp [sampleLib, hbytes]⟩

/-- A frame in the store of the server, as a value of user code. -/
def loadedFrame : JsonStore × JsonRef := load (callFrame 1) .empty

def notificationFrame : Json :=
  .object [("method", .string (text "add")), ("params", callFrame 1)]

def responseFrame : Json := .object [("result", callFrame 1), ("id", .integer 1)]

/-- As parameters, the object of a call is handed to `onnotify`. As a result, it calls
nothing. -/
theorem encoders_and_receiver_agree_sample :
    ∃ w hist bytes1 bytes2,
      run (step (sample [])) (start loadedFrame.1 (fun _ => false) ())
        [callbackFor 7 .established] = .ok (w, hist) ∧
      Queues (sample []) w 7 (.notify (text "add") (some loadedFrame.2)) bytes1 ∧
      Notifies ⟨sampleLib [notificationFrame], ⟨64, 24, 16⟩⟩ bytes1 (text "add") (callFrame 1) ∧
      Queues (sample []) w 7 (.respond (some loadedFrame.2) 1) bytes2 ∧
      CallsNothing ⟨sampleLib [responseFrame], ⟨64, 24, 16⟩⟩ bytes2 := by
  obtain ⟨w, hist, hrun, hc, hjson, hoom⟩ : ∃ w hist,
      run (step (sample [])) (start loadedFrame.1 (fun _ => false) ())
        [callbackFor 7 .established] = .ok (w, hist) ∧
      w.phase 7 = .established ∧ w.mach.json = loadedFrame.1 ∧ w.mach.oom = fun _ => false :=
    ⟨_, _, rfl, rfl, rfl, rfl⟩
  have hread : w.mach.json.read loadedFrame.2 = some (callFrame 1) := by
    rw [hjson]
    exact read_load _ _
  have hvalid : w.mach.json.Closed ∧ LiveArg w.mach.json (some loadedFrame.2) := by
    rw [hjson]
    decide
  have hmemory : ∀ n, w.mach.oom n = false := by
    rw [hoom]
    exact fun _ => rfl
  have hframe1 : frameOf w.mach.json (.notify (text "add") (some loadedFrame.2)) =
      some notificationFrame := by
    simp only [frameOf, Option.bind_some, hread, Option.map_some]
    rfl
  have hframe2 : frameOf w.mach.json (.respond (some loadedFrame.2) 1) = some responseFrame := by
    simp only [frameOf, Option.bind_some, hread, Option.map_some]
    rfl
  obtain ⟨bytes1, hqueues1, hnotifies⟩ := (encoders_and_receiver_agree (sample []) loadedFrame.1
    (fun _ => false) () ⟨sampleLib [notificationFrame], ⟨64, 24, 16⟩⟩ hrun hc).1
    (.notify (text "add") (some loadedFrame.2)) _ hvalid (by decide) (fun n _ => hmemory n)
    hframe1 (roundTrips_sample (by decide))
  obtain ⟨bytes2, hqueues2, hnothing⟩ := (encoders_and_receiver_agree (sample []) loadedFrame.1
    (fun _ => false) () ⟨sampleLib [responseFrame], ⟨64, 24, 16⟩⟩ hrun hc).1
    (.respond (some loadedFrame.2) 1) _ hvalid rfl (fun n _ => hmemory n) hframe2
    (roundTrips_sample (by decide))
  exact ⟨w, hist, bytes1, bytes2, hrun, hqueues1, hnotifies _ hread rfl, hqueues2, hnothing⟩

end jrpc.service

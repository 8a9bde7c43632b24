-- The frames that user code sends: a frame is complete just when every call of the JSON
-- library that builds it succeeds. When one of them fails, its result is dropped, and a
-- frame with a member missing is sent all the same.
import Jrpc.Objects
import Jrpc.Delivery

open heap runs
open jrpc.json jrpc.message jrpc.queue jrpc.connection jrpc.protocol

namespace jrpc.service

variable {H : Type}

/-! ## Complete frames -/

/-- The frame that the documentation asks for. A value that user code gave is in it as it
was read before. -/
def Complete (s : JsonStore) (frame : Json) : Send → Prop
  | .respond result id =>
    ∃ r, frame = .object [("result", r), ("id", .integer id.toInt64)] ∧
      ∀ x, result.bind s.read = some x → r = x
  | .respond_error code message id =>
    frame = .object
      [("error", .object [("code", .integer code.toInt64), ("message", .string message)]),
        ("id", .integer id.toInt64)]
  | .notify method params =>
    ∃ r, frame = .object [("method", .string method), ("params", r)] ∧
      ∀ x, params.bind s.read = some x → r = x

/-- Every call of the JSON library succeeds: there is memory for it, no value is NULL, and
text is UTF-8. -/
def succeeds (lib : JsonLib) (oom : Nat → Bool) : Send → Bool
  | .respond result _ => !oom 0 && (result.isSome && !oom 1) && (!oom 2 && !oom 3)
  | .respond_error _ message _ =>
    !oom 5 && (!oom 0 && !oom 6) && (!oom 1 && !oom 2) &&
      (!(oom 3 || !lib.utf8 message) && !oom 4) && (!oom 7 && !oom 8)
  | .notify method params =>
    !oom 0 && (!(oom 1 || !lib.utf8 method) && !oom 2) && (params.isSome && !oom 3)

theorem twoMembers_inj {key1 key2 : String} (hk : key1 ≠ key2) {v1 v2 u1 u2 : Option Json} :
    twoMembers key1 v1 key2 v2 = twoMembers key1 u1 key2 u2 ↔ v1 = u1 ∧ v2 = u2 := by
  unfold twoMembers
  rw [Json.object.injEq]
  cases v1 <;> cases v2 <;> cases u1 <;> cases u2 <;> simp [hk, hk.symm]

theorem below_of_live {s : JsonStore} {v : Option JsonRef} (h : LiveArg s v) :
    ∀ r, v = some r → Below s.nodes.next r := by
  rintro r rfl x rfl
  obtain ⟨c, hc⟩ := Arena.live_iff.mp (h : s.nodes.Live x)
  exact Arena.lt_next_of_cell hc

/-- The object that a call built is complete just when every call of the library succeeded. -/
theorem complete_iff {p : Platform} {call : Send} {m : Machine} {frame : Json}
    (hvalid : Send.ValidIn m.json call)
    (hv : (call.object p m).bind (call.ready p m).json.read = some frame) :
    Complete m.json frame call ↔ succeeds p.lib m.oom call = true := by
  cases call with
  | respond result id =>
    obtain ⟨h0, v1, v2, rfl, hs1, hs2, hv1, hv2⟩ :=
      responseObject_read (fenced_of_closed hvalid.1) (below_of_live hvalid.2) hv
    have hs : succeeds p.lib m.oom (.respond result id) = (v1.isSome && v2.isSome) := by
      simp only [succeeds, h0, hs1, hs2, Bool.not_false, Bool.true_and]
    rw [hs, Bool.and_eq_true]
    constructor
    · rintro ⟨r, he, _⟩
      have he : twoMembers "result" v1 "id" v2 =
          twoMembers "result" (some r) "id" (some (.integer id.toInt64)) := he
      obtain ⟨rfl, rfl⟩ := (twoMembers_inj (by decide)).mp he
      exact ⟨rfl, rfl⟩
    · rintro ⟨h1, h2⟩
      obtain ⟨r, rfl⟩ := Option.isSome_iff_exists.mp h1
      obtain ⟨i, rfl⟩ := Option.isSome_iff_exists.mp h2
      refine ⟨r, ?_, fun x hx => hv1 r x rfl hx⟩
      rw [hv2 i rfl]
      rfl
  | respond_error code message id =>
    obtain ⟨h5, v1, v2, rfl, hs1, hs2, hv1, hv2⟩ :=
      errorObject_read (fenced_of_closed hvalid) hv
    have hs : succeeds p.lib m.oom (.respond_error code message id) =
        (v1.isSome && (!m.oom 1 && !m.oom 2) &&
          (!(m.oom 3 || !p.lib.utf8 message) && !m.oom 4) && v2.isSome) := by
      simp only [succeeds, h5, hs1, hs2, Bool.not_false, Bool.true_and]
    rw [hs, Bool.and_eq_true, Bool.and_eq_true, Bool.and_eq_true]
    constructor
    · intro he
      have he : twoMembers "error" v1 "id" v2 = twoMembers "error"
          (some (twoMembers "code" (some (.integer code.toInt64)) "message"
            (some (.string message)))) "id" (some (.integer id.toInt64)) := he
      obtain ⟨rfl, rfl⟩ := (twoMembers_inj (by decide)).mp he
      obtain ⟨u1, u2, hu, hu1, hu2, _, _⟩ := hv1 _ rfl
      obtain ⟨rfl, rfl⟩ := (twoMembers_inj (by decide)).mp hu
      exact ⟨⟨⟨rfl, hu1.symm⟩, hu2.symm⟩, rfl⟩
    · rintro ⟨⟨⟨h1, hcode⟩, hmessage⟩, h2⟩
      obtain ⟨r, rfl⟩ := Option.isSome_iff_exists.mp h1
      obtain ⟨i, rfl⟩ := Option.isSome_iff_exists.mp h2
      obtain ⟨u1, u2, rfl, hu1, hu2, hy1, hy2⟩ := hv1 r rfl
      obtain ⟨y1, rfl⟩ := Option.isSome_iff_exists.mp (hu1.trans hcode)
      obtain ⟨y2, rfl⟩ := Option.isSome_iff_exists.mp (hu2.trans hmessage)
      rw [hv2 i rfl, hy1 y1 rfl, hy2 y2 rfl]
      rfl
  | notify method params =>
    obtain ⟨h0, v1, v2, rfl, hs1, hs2, hv1, hv2⟩ :=
      notificationObject_read (fenced_of_closed hvalid.1) (below_of_live hvalid.2) hv
    have hs : succeeds p.lib m.oom (.notify method params) = (v1.isSome && v2.isSome) := by
      simp only [succeeds, h0, hs1, hs2, Bool.not_false, Bool.true_and]
    rw [hs, Bool.and_eq_true]
    constructor
    · rintro ⟨r, he, _⟩
      have he : twoMembers "method" v1 "params" v2 =
          twoMembers "method" (some (.string method)) "params" (some r) := he
      obtain ⟨rfl, rfl⟩ := (twoMembers_inj (by decide)).mp he
      exact ⟨rfl, rfl⟩
    · rintro ⟨h1, h2⟩
      obtain ⟨i, rfl⟩ := Option.isSome_iff_exists.mp h1
      obtain ⟨r, rfl⟩ := Option.isSome_iff_exists.mp h2
      refine ⟨r, ?_, fun x hx => hv2 r x rfl hx⟩
      rw [hv1 i rfl]
      rfl

/-! ## What a call does to the queue -/

/-- The queue is as it was, or it has one more message, with this text of a complete frame. -/
def CompleteOrNothing (s : JsonStore) (call : Send) (frame : Json) (bytes : Bytes)
    (l l' : List (Addr × Bytes)) : Prop :=
  l' = l ∨ ∃ message, l' = l ++ [(message, bytes)] ∧ Complete s frame call

/-- A call puts its message at the end of the queue, if there is memory for the message. -/
theorem call_appends {env : Env H} {w : World H} {b : outbox.Outbox Conn (Addr × Bytes)}
    (h : Refines env w b) {c : Conn} (hc : w.phase c = .established) (call : Send) :
    ∃ mach out, call.run env.platform c w.mach = .ok (mach, out) ∧
      Holds mach.heap (mach.conns c).messages (b.queue c ++
        (newMessage env.platform (call.object env.platform w.mach)
          (call.ready env.platform w.mach)).toList) := by
  obtain ⟨mach, hrun, hs⟩ := Send.run_spec env.platform call h.coupled (h.socket c hc)
  have hholds := hs.coupled.holds c
  rw [Function.update_self] at hholds
  exact ⟨mach, _, hrun, hholds⟩

/-- The new message of a call whose object has a text. -/
theorem newMessage_eq {p : Platform} {call : Send} {m : Machine} {frame : Json} {bytes : Bytes}
    (hframe : (call.object p m).bind (call.ready p m).json.read = some frame)
    (hbytes : p.lib.dumps frame = some bytes) :
    newMessage p (call.object p m) (call.ready p m) =
      if m.oom call.allocations then none else some (m.heap.next, bytes) := by
  have htext : textOf p.lib (call.ready p m).json (call.object p m) = bytes := by
    unfold textOf JsonStore.compact
    rw [hframe, Option.bind_some, hbytes]
    rfl
  have hoom : (call.ready p m).oom 0 = m.oom call.allocations := by
    simp [Send.ready, later]
  unfold newMessage
  rw [htext, hoom]
  rfl

/-- A call sends a complete frame or nothing just when there is no memory for the message, or
all calls of the library that build the frame succeed. -/
theorem complete_or_nothing_iff {p : Platform} {call : Send} {m : Machine} {frame : Json}
    {bytes : Bytes} (hvalid : Send.ValidIn m.json call)
    (hframe : (call.object p m).bind (call.ready p m).json.read = some frame)
    (hbytes : p.lib.dumps frame = some bytes) (l : List (Addr × Bytes)) :
    CompleteOrNothing m.json call frame bytes l
        (l ++ (newMessage p (call.object p m) (call.ready p m)).toList) ↔
      m.oom call.allocations = true ∨ succeeds p.lib m.oom call = true := by
  rw [newMessage_eq hframe hbytes, ← complete_iff hvalid hframe]
  unfold CompleteOrNothing
  rcases hoom : m.oom call.allocations with _ | _
  · simp
  · simp

/-- In every state that a run reaches, each call of user code on an established connection
leaves the queue as it was or appends one complete frame, just when there is no memory for the
message, or all calls of the library that build the frame succeed. -/
theorem frames_are_complete_iff (env : Env H) (json : JsonStore) (oom : Nat → Bool) (user : H)
    {is : List (Input H)} {w : World H} {hist : List Event} {c : Conn} {call : Send}
    {frame : Json} {bytes : Bytes}
    (hr : run (step env) (start json oom user) is = .ok (w, hist))
    (hc : w.phase c = .established) (hvalid : Send.ValidIn w.mach.json call)
    (hframe : (call.object env.platform w.mach).bind
      (call.ready env.platform w.mach).json.read = some frame)
    (hbytes : env.platform.lib.dumps frame = some bytes) :
    ∃ mach out l l', call.run env.platform c w.mach = .ok (mach, out) ∧
      Holds w.mach.heap (w.mach.conns c).messages l ∧
      Holds mach.heap (mach.conns c).messages l' ∧
      (CompleteOrNothing w.mach.json call frame bytes l l' ↔
        w.mach.oom call.allocations = true ∨
          succeeds env.platform.lib w.mach.oom call = true) := by
  obtain ⟨_, b, hx⟩ := run_explains (start_refines env json oom user) hr
  obtain ⟨mach, out, hrun, hholds⟩ := call_appends hx.refines hc call
  exact ⟨mach, out, _, _, hrun, hx.refines.coupled.holds c, hholds,
    complete_or_nothing_iff hvalid hframe hbytes _⟩

/-- An error with a text that is UTF-8. -/
def goodText : Send := .respond_error (-1) (text "busy") 1

/-- With memory for all of it, the frame of the error is complete. -/
theorem frames_are_complete_iff_sample :
    ∃ w hist mach out l l' frame bytes,
      run (step (sample [])) sampleStart [callbackFor 7 .established] = .ok (w, hist) ∧
      goodText.run (sample []).platform 7 w.mach = .ok (mach, out) ∧
      Holds w.mach.heap (w.mach.conns 7).messages l ∧
      Holds mach.heap (mach.conns 7).messages l' ∧
      CompleteOrNothing w.mach.json goodText frame bytes l l' := by
  have htest : runEnds (step (sample [])) sampleStart [callbackFor 7 .established]
      (fun w _ => decide (w.phase 7 = .established ∧ Send.ValidIn w.mach.json goodText ∧
        succeeds (sample []).platform.lib w.mach.oom goodText = true ∧
        (((goodText.object (sample []).platform w.mach).bind
          (goodText.ready (sample []).platform w.mach).json.read).bind print).isSome)) = true := by
    decide +kernel
  obtain ⟨w, hist, hrun, htest⟩ := runEnds_spec htest
  obtain ⟨hc, hvalid, hok, hprint⟩ := of_decide_eq_true htest
  obtain ⟨bytes, hprint⟩ := Option.isSome_iff_exists.mp hprint
  obtain ⟨frame, hframe, hbytes⟩ := Option.bind_eq_some_iff.mp hprint
  obtain ⟨mach, out, l, l', hcall, hl, hl', hiff⟩ := frames_are_complete_iff (sample []) .empty
    (fun _ => false) () hrun hc hvalid hframe hbytes
  exact ⟨w, hist, mach, out, l, l', frame, bytes, hrun, hcall, hl, hl', hiff.mpr (.inr hok)⟩

/-- An error with a text that is not UTF-8. -/
def badText : Send := .respond_error (-1) [255] 1

/-- The frame of the error is sent without its message. -/
theorem error_without_message :
    ∃ w hist mach out l l' frame bytes,
      run (step (sample [])) sampleStart [callbackFor 7 .established] = .ok (w, hist) ∧
      w.phase 7 = .established ∧ Send.ValidIn w.mach.json badText ∧
      badText.run (sample []).platform 7 w.mach = .ok (mach, out) ∧
      Holds w.mach.heap (w.mach.conns 7).messages l ∧
      Holds mach.heap (mach.conns 7).messages l' ∧
      (badText.object (sample []).platform w.mach).bind
        (badText.ready (sample []).platform w.mach).json.read = some frame ∧
      (sample []).platform.lib.dumps frame = some bytes ∧
      ¬ CompleteOrNothing w.mach.json badText frame bytes l l' := by
  have htest : runEnds (step (sample [])) sampleStart [callbackFor 7 .established]
      (fun w _ => decide (w.phase 7 = .established ∧ Send.ValidIn w.mach.json badText ∧
        w.mach.oom 9 = false ∧
        (((badText.object (sample []).platform w.mach).bind
          (badText.ready (sample []).platform w.mach).json.read).bind print).isSome)) = true := by
    decide +kernel
  obtain ⟨w, hist, hrun, htest⟩ := runEnds_spec htest
  obtain ⟨hc, hvalid, hoom, hprint⟩ := of_decide_eq_true htest
  obtain ⟨bytes, hprint⟩ := Option.isSome_iff_exists.mp hprint
  obtain ⟨frame, hframe, hbytes⟩ := Option.bind_eq_some_iff.mp hprint
  have hx : Refines (sample []) sampleStart outbox.start := start_refines _ _ _ _
  obtain ⟨_, b, hx⟩ := run_explains hx hrun
  obtain ⟨mach, out, hcall, hholds⟩ := call_appends hx.refines hc badText
  refine ⟨w, hist, mach, out, _, _, frame, bytes, hrun, hc, hvalid, hcall,
    hx.refines.coupled.holds 7, hholds, hframe, hbytes, ?_⟩
  rw [complete_or_nothing_iff hvalid hframe hbytes]
  rintro (hfull | hok)
  · rw [show w.mach.oom badText.allocations = false from hoom] at hfull
    cases hfull
  · simp [succeeds, badText, sample, sampleLib] at hok

end jrpc.service

-- Which handlers a run calls: one call for each buffer that is a call by itself, and no
-- other one. So a frame that comes in parts is not put together again, and a frame with an
-- id that is no integer is taken for a notification.
import Mathlib.Algebra.Group.Int.Defs
import Jrpc.Delivery
import Jrpc.Handlers

open heap runs
open jrpc.json jrpc.message jrpc.queue jrpc.connection jrpc.protocol

namespace jrpc.service

variable {H : Type}

/-! ## The calls of a run -/

def callConn : Event → Option Conn
  | .onmethod c _ _ _ => some c
  | .onnotify c _ _ => some c
  | _ => none

/-- The calls for one connection. -/
def callsOn (c : Conn) (out : List Event) : List Event :=
  out.filter fun e => callConn e = some c

def frames (is : List (Input H)) : List (Conn × Bytes) := is.filterMap frameIn

/-- The buffers that came on one connection, oldest first. -/
def received (c : Conn) (is : List (Input H)) : List Bytes :=
  ((frames is).filter fun f => f.1 = c).map (·.2)

theorem callConn_event (c : Conn) (call : Call) : callConn (call.event c) = some c := by
  unfold Call.event
  cases call.id <;> rfl

/-- A run calls a handler for each buffer that is a call by itself, in the order in which
the buffers came. -/
theorem run_calls {env : Env H} {w w' : World H} {is : List (Input H)} {out : List Event}
    (h : run (step env) w is = .ok (w', out)) :
    calls out = (frames is).filterMap fun f => callEvent env.platform.lib f.1 f.2 := by
  induction is generalizing w out with
  | nil =>
    cases h
    rfl
  | cons i is ih =>
    obtain ⟨w1, o, o', hstep, hrest, rfl⟩ := run_cons_ok.mp h
    rw [calls_append, step_calls hstep, ih hrest]
    unfold frames callOfInput
    rcases hi : frameIn i with _ | f
    · simp [hi]
    · rcases hcall : callEvent env.platform.lib f.1 f.2 with _ | e <;> simp [hi, hcall]

theorem callsOn_calls (c : Conn) (out : List Event) : callsOn c (calls out) = callsOn c out := by
  unfold callsOn calls
  rw [List.filter_filter]
  apply List.filter_congr
  intro e _
  cases e <;> simp [callConn, isCall]

theorem sentTo_sends (c : Conn) (out : List Event) : sentTo c (sends out) = sentTo c out := by
  unfold sentTo sends
  rw [List.filterMap_filter]
  apply List.filterMap_congr
  intro e _
  cases e <;> rfl

/-- The calls for a connection come from the buffers of the connection. -/
theorem run_callsOn {env : Env H} {w w' : World H} {is : List (Input H)} {out : List Event}
    (h : run (step env) w is = .ok (w', out)) (c : Conn) :
    callsOn c out = (received c is).filterMap (callEvent env.platform.lib c) := by
  rw [← callsOn_calls, run_calls h]
  unfold received callsOn
  generalize frames is = fs
  induction fs with
  | nil => rfl
  | cons f fs ih =>
    rcases hcall : callEvent env.platform.lib f.1 f.2 with _ | e
    · by_cases hc : f.1 = c
      · subst hc
        simp only [List.filterMap_cons, hcall, List.filter_cons, decide_true, if_true,
          List.map_cons, ih]
      · simp only [List.filterMap_cons, hcall, List.filter_cons, hc, decide_false,
          Bool.false_eq_true, if_false, ih]
    · have hconn : callConn e = some f.1 := by
        unfold callEvent at hcall
        obtain ⟨call, _, rfl⟩ := Option.map_eq_some_iff.mp hcall
        exact callConn_event f.1 call
      by_cases hc : f.1 = c
      · subst hc
        simp only [List.filterMap_cons, hcall, List.filter_cons, hconn, decide_true, if_true,
          List.map_cons, ih]
      · simp only [List.filterMap_cons, hcall, List.filter_cons, hconn, Option.some.injEq, hc,
          decide_false, Bool.false_eq_true, if_false, ih]

/-! ## A message in parts -/

theorem int_ids_equal_iff (i j : Int64) :
    i.toInt32.toInt64 = j.toInt32.toInt64 ↔ (2 : Int) ^ 32 ∣ i.toInt - j.toInt := by
  rw [← Int64.toInt_inj, Int32.toInt_toInt64, Int32.toInt_toInt64, Int64.toInt_toInt32,
    Int64.toInt_toInt32, Int.bmod_def, Int.bmod_def]
  omega

/-- The buffer loads as this frame, and the frame is a call: its `method` is a string, and its
`params` an array or an object. -/
def LoadsCall (lib : JsonLib) (buffer : Bytes) (frame : Json) : Prop :=
  lib.loads buffer = some frame ∧ (∃ t, frame.get "method" = some (.string t)) ∧
    ∃ params, frame.get "params" = some params ∧ isContainer params = true

/-- Both ids are integers and differ by a multiple of 2^32, or none of them is an integer. -/
def SameId : Option Int64 → Option Int64 → Prop :=
  Option.Rel fun i j => (2 : Int) ^ 32 ∣ i.toInt - j.toInt

/-- Two frames that are one call for a handler. -/
def SameCall (u v : Json) : Prop :=
  u.get "method" = v.get "method" ∧ u.get "params" = v.get "params" ∧
    SameId ((u.get "id").bind integerOf) ((v.get "id").bind integerOf)

/-- Neither the message nor a part of it loads as a call, or just one part does, and the message
loads as the same call. -/
def PartsAgree (lib : JsonLib) (parts : List Bytes) : Prop :=
  (∀ b ∈ parts.flatten :: parts, ∀ u, ¬ LoadsCall lib b u) ∨
    ∃ before b after u v, parts = before ++ b :: after ∧
      (∀ x ∈ before ++ after, ∀ y, ¬ LoadsCall lib x y) ∧ LoadsCall lib b u ∧
      LoadsCall lib parts.flatten v ∧ SameCall u v

theorem callIn_eq_iff {lib : JsonLib} {buffer : Bytes} {call : Call} :
    callIn lib buffer = some call ↔
      ∃ frame, LoadsCall lib buffer frame ∧
        frame.get "method" = some (.string call.method_name) ∧
        frame.get "params" = some call.params ∧ (frame.get "id").bind integerOf = call.id := by
  unfold callIn callOf LoadsCall
  constructor
  · intro h
    obtain ⟨frame, hload, h⟩ := Option.bind_eq_some_iff.mp h
    obtain ⟨name, hname, h⟩ := Option.bind_eq_some_iff.mp h
    obtain ⟨params, hparams, h⟩ := Option.bind_eq_some_iff.mp h
    cases h
    obtain ⟨v, hmethod, hv⟩ := Option.bind_eq_some_iff.mp hname
    obtain ⟨hget, hcontainer⟩ := Option.filter_eq_some_iff.mp hparams
    have hstring : v = .string name := by
      cases v <;> cases hv
      rfl
    subst hstring
    exact ⟨frame, ⟨hload, ⟨name, hmethod⟩, params, hget, hcontainer⟩, hmethod, hget, rfl⟩
  · rintro ⟨frame, ⟨hload, _, params, hget, hcontainer⟩, hmethod, hparams, hid⟩
    rw [hparams] at hget
    cases hget
    rw [hload, Option.bind_some, hmethod, hparams, hid]
    simp [stringOf, Option.filter, hcontainer]

theorem callEvent_none_iff {lib : JsonLib} {c : Conn} {buffer : Bytes} :
    callEvent lib c buffer = none ↔ ∀ u, ¬ LoadsCall lib buffer u := by
  unfold callEvent
  rw [Option.map_eq_none_iff, Option.eq_none_iff_forall_ne_some]
  constructor
  · rintro h u hu
    obtain ⟨_, ⟨t, hmethod⟩, params, hparams, _⟩ := id hu
    exact h ⟨t, params, (u.get "id").bind integerOf⟩
      (callIn_eq_iff.mpr ⟨u, hu, hmethod, hparams, rfl⟩)
  · rintro h call hcall
    obtain ⟨u, hu, _⟩ := callIn_eq_iff.mp hcall
    exact h u hu

/-- What a handler is given decides what frame it was, but for the part of an integer id that is
cut off, and for an id that is no integer. -/
theorem event_eq_iff {c : Conn} {call call' : Call} :
    call.event c = call'.event c ↔
      call.method_name = call'.method_name ∧ call.params = call'.params ∧
        SameId call.id call'.id := by
  obtain ⟨name, params, id⟩ := call
  obtain ⟨name', params', id'⟩ := call'
  cases id with
  | none => cases id' <;> simp [Call.event, SameId]
  | some i =>
    cases id' with
    | none => simp [Call.event, SameId]
    | some j =>
      have hid : i.toInt32 = j.toInt32 ↔ i.toInt32.toInt64 = j.toInt32.toInt64 := by
        rw [← Int64.toInt_inj, Int32.toInt_toInt64, Int32.toInt_toInt64, Int32.toInt_inj]
      simp [Call.event, SameId, hid, int_ids_equal_iff]

/-- Two buffers that load as calls are the same call for a handler just when their frames are. -/
theorem callEvent_eq_iff {lib : JsonLib} {c : Conn} {b b' : Bytes} {u v : Json}
    (hu : LoadsCall lib b u) (hv : LoadsCall lib b' v) :
    callEvent lib c b = callEvent lib c b' ↔ SameCall u v := by
  obtain ⟨_, ⟨t, hmethod⟩, params, hparams, _⟩ := id hu
  obtain ⟨_, ⟨t', hmethod'⟩, params', hparams', _⟩ := id hv
  have hcall : callIn lib b = some ⟨t, params, (u.get "id").bind integerOf⟩ :=
    callIn_eq_iff.mpr ⟨u, hu, hmethod, hparams, rfl⟩
  have hcall' : callIn lib b' = some ⟨t', params', (v.get "id").bind integerOf⟩ :=
    callIn_eq_iff.mpr ⟨v, hv, hmethod', hparams', rfl⟩
  unfold callEvent SameCall
  rw [hcall, hcall', Option.map_some, Option.map_some, Option.some.injEq, event_eq_iff, hmethod,
    hmethod', hparams, hparams']
  simp

theorem filterMap_eq_toList_iff {α β : Type} {f : α → Option β} {l : List α} {o : Option β} :
    l.filterMap f = o.toList ↔
      (o = none ∧ ∀ x ∈ l, f x = none) ∨
        ∃ before b after, l = before ++ b :: after ∧ (∀ x ∈ before ++ after, f x = none) ∧
          (f b).isSome ∧ f b = o := by
  cases o with
  | none =>
    rw [Option.toList_none, List.filterMap_eq_nil_iff]
    constructor
    · exact fun h => .inl ⟨rfl, h⟩
    · rintro (⟨_, h⟩ | ⟨before, b, after, _, _, hb, hn⟩)
      · exact h
      · rw [hn] at hb
        cases hb
  | some y =>
    rw [Option.toList_some, List.filterMap_eq_cons_iff]
    constructor
    · rintro ⟨before, b, after, rfl, hbefore, hb, hafter⟩
      refine .inr ⟨before, b, after, rfl, fun x hx => ?_, by rw [hb]; rfl, hb⟩
      rcases List.mem_append.mp hx with hx | hx
      · exact hbefore x hx
      · exact List.filterMap_eq_nil_iff.mp hafter x hx
    · rintro (⟨hn, _⟩ | ⟨before, b, after, rfl, hrest, _, hb⟩)
      · cases hn
      · refine ⟨before, b, after, rfl, fun x hx => hrest x (List.mem_append_left _ hx), hb, ?_⟩
        exact List.filterMap_eq_nil_iff.mpr fun x hx => hrest x (List.mem_append_right _ hx)

/-- The parts agree with the message just when they make the calls that the message makes. -/
theorem partsAgree_iff {lib : JsonLib} (c : Conn) (parts : List Bytes) :
    parts.filterMap (callEvent lib c) = (callEvent lib c parts.flatten).toList ↔
      PartsAgree lib parts := by
  rw [filterMap_eq_toList_iff]
  unfold PartsAgree
  apply or_congr
  · simp only [List.forall_mem_cons, callEvent_none_iff]
  · constructor
    · rintro ⟨before, b, after, rfl, hrest, hb, he⟩
      have hwhole := hb
      rw [he] at hwhole
      have hcall : ∀ x, (callEvent lib c x).isSome → ∃ u, LoadsCall lib x u := by
        intro x hx
        by_contra hn
        rw [callEvent_none_iff.mpr fun u hu => hn ⟨u, hu⟩] at hx
        cases hx
      obtain ⟨u, hu⟩ := hcall _ hb
      obtain ⟨v, hv⟩ := hcall _ hwhole
      exact ⟨before, b, after, u, v, rfl, fun x hx => callEvent_none_iff.mp (hrest x hx), hu, hv,
        (callEvent_eq_iff hu hv).mp he⟩
    · rintro ⟨before, b, after, u, v, rfl, hrest, hu, hv, hsame⟩
      refine ⟨before, b, after, rfl, fun x hx => callEvent_none_iff.mpr (hrest x hx), ?_,
        (callEvent_eq_iff hu hv).mpr hsame⟩
      rw [Option.isSome_iff_ne_none]
      exact fun hn => callEvent_none_iff.mp hn u hu

/-- Take one run in which a message comes in parts, and one in which it comes whole. The
handlers are called alike in both just when no part and not the message loads as a call, or just
one part does, and the message loads as the same call. -/
theorem parts_are_one_message_iff {env : Env H} {w w1 w' w1' : World H}
    {is is' : List (Input H)} {out out' : List Event} {c : Conn}
    (hparts : run (step env) w is = .ok (w1, out))
    (hwhole : run (step env) w' is' = .ok (w1', out'))
    (hsame : received c is' = [(received c is).flatten]) :
    callsOn c out = callsOn c out' ↔ PartsAgree env.platform.lib (received c is) := by
  rw [run_callsOn hparts, run_callsOn hwhole, hsame, ← partsAgree_iff c]
  rcases h : callEvent env.platform.lib c (received c is).flatten with _ | e <;> simp [h]

/-- The text of a call. -/
def callText (id : Int64) : Bytes := (print (callFrame id)).getD []

/-- A call of a method in two parts: no handler is called for either of them. -/
theorem parts_are_lost :
    ∃ w out w' out' first second, first ≠ [] ∧ second ≠ [] ∧ first ++ second = callText 1 ∧
      run (step (sample [callFrame 1])) sampleStart
        [callbackFor 7 .established, callbackFor 7 (.receive first),
          callbackFor 7 (.receive second)] = .ok (w, out) ∧
      run (step (sample [callFrame 1])) sampleStart
        [callbackFor 7 .established, callbackFor 7 (.receive (first ++ second))] =
          .ok (w', out') ∧
      callsOn 7 out = [] ∧ callsOn 7 out ≠ callsOn 7 out' := by
  have htest : runEnds (step (sample [callFrame 1])) sampleStart
      [callbackFor 7 .established, callbackFor 7 (.receive ((callText 1).take 1)),
        callbackFor 7 (.receive ((callText 1).drop 1))]
      (fun _ out => (callsOn 7 out).length = 0) = true := by decide +kernel
  have htest' : runEnds (step (sample [callFrame 1])) sampleStart
      [callbackFor 7 .established,
        callbackFor 7 (.receive ((callText 1).take 1 ++ (callText 1).drop 1))]
      (fun _ out => (callsOn 7 out).length = 1) = true := by decide +kernel
  obtain ⟨w, out, hrun, hnone⟩ := runEnds_spec htest
  obtain ⟨w', out', hrun', hone⟩ := runEnds_spec htest'
  have hnone := List.eq_nil_of_length_eq_zero (of_decide_eq_true hnone)
  have hone : (callsOn 7 out').length = 1 := of_decide_eq_true hone
  refine ⟨w, out, w', out', (callText 1).take 1, (callText 1).drop 1, by decide, by decide,
    List.take_append_drop _ _, hrun, hrun', hnone, fun he => ?_⟩
  rw [← he, hnone] at hone
  cases hone

/-- The sample library loads the first of the values that it knows. -/
theorem sampleLib_loads {v : Json} {b : Bytes} (known : List Json) (h : print v = some b) :
    (sampleLib (v :: known)).loads b = some v := by
  simp [sampleLib, h]

/-- A server that knows one call. Its JSON library skips a line end after a value. -/
def lineServer : Env Unit :=
  { sample [callFrame 1] with
    platform :=
      { lib := { sampleLib [callFrame 1] with
          loads := fun b =>
            (sampleLib [callFrame 1]).loads (if b.getLast? = some 10 then b.dropLast else b) }
        abi := ⟨64, 24, 16⟩ } }

/-- A call and the line end after it come in two parts, with callbacks of another connection
between them. -/
def lineInParts : List (Input Unit) :=
  [callbackFor 7 .established, callbackFor 8 .established,
    callbackFor 7 (.receive (callText 1)), callbackFor 7 (.server_writeable 9),
    receiveFrame 8 (callFrame 1), callbackFor 8 (.server_writeable 9),
    callbackFor 7 (.receive [10])]

/-- The handler is called once, as when the call and its line end come whole. -/
theorem parts_are_one_message_iff_sample :
    ∃ w out w' out', run (step lineServer) sampleStart lineInParts = .ok (w, out) ∧
      run (step lineServer) sampleStart
        [callbackFor 7 .established, callbackFor 7 (.receive (callText 1 ++ [10]))] =
          .ok (w', out') ∧
      received 7 lineInParts = [callText 1, [10]] ∧ callText 1 ≠ [] ∧
      (callsOn 7 out).length = 1 ∧ callsOn 7 out = callsOn 7 out' := by
  have htest : runEnds (step lineServer) sampleStart lineInParts
      (fun _ out => (callsOn 7 out).length = 1) = true := by decide +kernel
  have htest' : runEnds (step lineServer) sampleStart
      [callbackFor 7 .established, callbackFor 7 (.receive (callText 1 ++ [10]))]
      (fun _ _ => true) = true := by decide +kernel
  have hloads : ∀ b, lineServer.platform.lib.loads b =
      (sampleLib [callFrame 1]).loads (if b.getLast? = some 10 then b.dropLast else b) :=
    fun _ => rfl
  have hcall : ∀ b, (if b.getLast? = some 10 then b.dropLast else b) = callText 1 →
      LoadsCall lineServer.platform.lib b (callFrame 1) := by
    intro b hb
    refine ⟨?_, ⟨_, rfl⟩, _, rfl, rfl⟩
    rw [hloads, hb]
    exact sampleLib_loads [] (by decide)
  have hempty : ∀ u, ¬ LoadsCall lineServer.platform.lib [10] u := by
    rintro u ⟨hload, _⟩
    have hnone : ((sampleLib [callFrame 1]).loads []).isNone = true := by decide
    rw [show (sampleLib [callFrame 1]).loads [] = some u from hload] at hnone
    cases hnone
  obtain ⟨w, out, hrun, hone⟩ := runEnds_spec htest
  obtain ⟨w', out', hrun', _⟩ := runEnds_spec htest'
  refine ⟨w, out, w', out', hrun, hrun', rfl, by decide, of_decide_eq_true hone,
    (parts_are_one_message_iff hrun hrun' rfl).mpr ?_⟩
  refine .inr ⟨[], callText 1, [[10]], callFrame 1, callFrame 1, rfl, ?_, hcall _ (by decide),
    hcall _ (by decide), rfl, rfl, ?_⟩
  · intro x hx
    rw [List.mem_singleton.mp hx]
    exact hempty
  · exact .some ⟨0, by simp⟩

/-! ## The kinds of frames -/

/-- A handler call as a client sees it, without the id. -/
inductive Called
  | onmethod (connection : Conn) (method_name : Bytes) (params : Option Json)
  | onnotify (connection : Conn) (method_name : Bytes) (params : Option Json)

def calledBy : Event → Option Called
  | .onmethod c method_name params _ => some (.onmethod c method_name params)
  | .onnotify c method_name params => some (.onnotify c method_name params)
  | _ => none

/-- What a frame is by its documentation: with an integer id it is a request, with no id or
the id `null` a notification, and with any other id it is neither. -/
def documented (c : Conn) (frame : Json) : Option Called := do
  let method_name ← (frame.get "method").bind stringOf
  let params ← (frame.get "params").filter isContainer
  match frame.get "id" with
  | none => some (.onnotify c method_name (some params))
  | some .null => some (.onnotify c method_name (some params))
  | some (.integer _) => some (.onmethod c method_name (some params))
  | some _ => none

/-- An id that is neither an integer nor `null`. -/
def strangeId : Json → Bool
  | .integer _ => false
  | .null => false
  | _ => true

theorem calledBy_event (c : Conn) (call : Call) :
    calledBy (call.event c) = some (match call.id with
      | some _ => .onmethod c call.method_name (some call.params)
      | none => .onnotify c call.method_name (some call.params)) := by
  unfold Call.event
  cases call.id <;> rfl

/-- The server and the documentation agree on a frame, unless it is a call with a strange
id. -/
theorem documented_iff (c : Conn) (frame : Json) :
    ((callOf frame).bind fun call => calledBy (call.event c)) = documented c frame ↔
      ¬ ((callOf frame).isSome ∧ ∃ id, frame.get "id" = some id ∧ strangeId id = true) := by
  unfold callOf documented
  rcases (frame.get "method").bind stringOf with _ | method_name
  · simp
  · rcases (frame.get "params").filter isContainer with _ | params
    · simp
    · rcases frame.get "id" with _ | id
      · simp [calledBy_event]
      · cases id <;> simp [calledBy_event, integerOf, strangeId]

theorem calledBy_calls (out : List Event) :
    (calls out).filterMap calledBy = out.filterMap calledBy := by
  unfold calls
  rw [List.filterMap_filter]
  apply List.filterMap_congr
  intro e _
  cases e <;> rfl

/-- A received buffer calls the handler that the documentation names, once and with the
method and the parameters of the frame, or no handler when it names none, unless the buffer
is a call with an id that is neither an integer nor `null`. -/
theorem frame_is_classified_iff {env : Env H} {w w' : World H} {cb : Callback} {c : Conn}
    {buffer : Bytes} {out : List Event} (hu : cb.user = some c)
    (hr : cb.reason = .receive buffer) (h : step env w (.callback cb) = .ok (w', out)) :
    out.filterMap calledBy =
        ((env.platform.lib.loads buffer).bind (documented c)).toList ↔
      ¬ ∃ frame id, env.platform.lib.loads buffer = some frame ∧ (callOf frame).isSome ∧
        frame.get "id" = some id ∧ strangeId id = true := by
  have hcalls := step_calls h
  obtain ⟨wsi, reason, user, has_protocol⟩ := cb
  simp only at hu hr
  subst hu hr
  rw [← calledBy_calls, hcalls]
  simp only [callOfInput, frameIn, Option.bind_some]
  unfold callEvent callIn
  rcases hload : env.platform.lib.loads buffer with _ | frame
  · simp
  · have hlist : ((callOf frame).map (·.event c)).toList.filterMap calledBy =
        ((callOf frame).bind fun call => calledBy (call.event c)).toList := by
      rcases callOf frame with _ | call
      · rfl
      · simp [calledBy_event]
    have hinj : ∀ a b : Option Called, a.toList = b.toList ↔ a = b := by
      intro a b
      cases a <;> cases b <;> simp
    simp only [Option.bind_some, hlist, hinj, documented_iff, Option.some.injEq]
    constructor
    · rintro hn ⟨frame', id, rfl, hcall, hid⟩
      exact hn ⟨hcall, id, hid⟩
    · rintro hn ⟨hcall, id, hid⟩
      exact hn ⟨frame, id, rfl, hcall, hid⟩

/-- A call with any id. -/
def anyIdFrame (id : Json) : Json :=
  .object [("method", .string (text "add")), ("params", .array []), ("id", id)]

/-- A call with a text for its id is taken for a notification. -/
theorem strange_id_is_notified :
    ∃ w w' out, run (step (sample [anyIdFrame (.string (text "x"))])) sampleStart
        [callbackFor 7 .established] = .ok w ∧
      step (sample [anyIdFrame (.string (text "x"))]) w.1
        (receiveFrame 7 (anyIdFrame (.string (text "x")))) = .ok (w', out) ∧
      documented 7 (anyIdFrame (.string (text "x"))) = none ∧
      out.filterMap calledBy = [.onnotify 7 (text "add") (some (.array []))] := by
  have htest : runEnds (step (sample [anyIdFrame (.string (text "x"))])) sampleStart
      ([callbackFor 7 .established] ++ [receiveFrame 7 (anyIdFrame (.string (text "x")))])
      (fun _ _ => true) = true := by decide +kernel
  obtain ⟨w2, out, hrun, _⟩ := runEnds_spec htest
  obtain ⟨w1, o1, o2, hfirst, hsecond, _⟩ := run_snoc_ok.mp hrun
  refine ⟨(w1, o1), w2, o2, hfirst, hsecond, rfl, ?_⟩
  obtain ⟨b, hb⟩ := Option.isSome_iff_exists.mp
    (by decide : (print (anyIdFrame (.string (text "x")))).isSome = true)
  rw [← calledBy_calls, step_calls hsecond]
  simp only [receiveFrame, callbackFor, callOfInput, frameIn, Option.bind_some, hb,
    Option.getD_some]
  unfold callEvent callIn
  rw [show (sample [anyIdFrame (.string (text "x"))]).platform.lib.loads b =
    some (anyIdFrame (.string (text "x"))) from sampleLib_loads [] hb]
  rfl

/-- A notification is classified as the documentation says. -/
theorem frame_is_classified_iff_sample :
    ∃ w w' out, run (step (sample [anyIdFrame .null])) sampleStart
        [callbackFor 7 .established] = .ok w ∧
      step (sample [anyIdFrame .null]) w.1 (receiveFrame 7 (anyIdFrame .null)) = .ok (w', out) ∧
      out.filterMap calledBy = [.onnotify 7 (text "add") (some (.array []))] := by
  have htest : runEnds (step (sample [anyIdFrame .null])) sampleStart
      ([callbackFor 7 .established] ++ [receiveFrame 7 (anyIdFrame .null)])
      (fun _ _ => true) = true := by decide +kernel
  obtain ⟨w2, out, hrun, _⟩ := runEnds_spec htest
  obtain ⟨w1, o1, o2, hfirst, hsecond, _⟩ := run_snoc_ok.mp hrun
  refine ⟨(w1, o1), w2, o2, hfirst, hsecond, ?_⟩
  obtain ⟨b, hb⟩ := Option.isSome_iff_exists.mp
    (by decide : (print (anyIdFrame .null)).isSome = true)
  have hload : (sample [anyIdFrame .null]).platform.lib.loads ((print (anyIdFrame .null)).getD []) =
      some (anyIdFrame .null) := by
    rw [hb]
    exact sampleLib_loads [] hb
  have hplain : ¬ ∃ frame id, (sample [anyIdFrame .null]).platform.lib.loads
      ((print (anyIdFrame .null)).getD []) = some frame ∧ (callOf frame).isSome ∧
        frame.get "id" = some id ∧ strangeId id = true := by
    rintro ⟨frame, id, he, _, hid, hs⟩
    rw [hload] at he
    cases he
    cases hid
    cases hs
  have hclass := (frame_is_classified_iff rfl rfl hsecond).mpr hplain
  rw [hload] at hclass
  exact hclass

end jrpc.service

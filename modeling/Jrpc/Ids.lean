-- The ids of requests and answers. A handler is given the id of its request as a C `int`, so
-- an id comes back as it was just when it fits into one, and two ids come back as one id just
-- when they differ by a multiple of 2^32.
import Jrpc.Frames
import Jrpc.Calls

open heap runs
open jrpc.json jrpc.message jrpc.queue jrpc.connection jrpc.protocol

namespace jrpc.service

variable {H : Type}

/-! ## Ids as a C `int` -/

def FitsInt (i : Int64) : Prop := -2 ^ 31 ≤ i.toInt ∧ i.toInt < 2 ^ 31

instance (i : Int64) : Decidable (FitsInt i) := by
  unfold FitsInt
  infer_instance

theorem int_id_iff (i : Int64) : i.toInt32.toInt64 = i ↔ FitsInt i := by
  unfold FitsInt
  rw [← Int64.toInt_inj, Int32.toInt_toInt64, Int64.toInt_toInt32, Int.bmod_def]
  omega

/-! ## The id of a frame -/

theorem lookup_optional (key key1 : String) (v : Option Json) :
    (v.map fun x => (key1, x)).toList.lookup key = if key = key1 then v else none := by
  cases v with
  | none => simp
  | some v =>
    rw [Option.map_some, Option.toList_some, List.lookup_cons]
    by_cases h : key = key1
    · rw [if_pos h, beq_iff_eq.mpr h]
    · rw [if_neg h, beq_false_of_ne h]
      rfl

theorem twoMembers_get (key key1 key2 : String) (v1 v2 : Option Json) :
    (twoMembers key1 v1 key2 v2).get key =
      (if key = key1 then v1 else none).or (if key = key2 then v2 else none) := by
  rw [← lookup_optional, ← lookup_optional, ← List.lookup_append]
  rfl

/-- The JSON library makes the id of the answer and puts it into the object. -/
def idMade (oom : Nat → Bool) : Send → Bool
  | .respond _ _ => !oom 2 && !oom 3
  | .respond_error _ _ _ => !oom 7 && !oom 8
  | .notify _ _ => false

theorem idMade_of_plenty {m : Machine} {id : Int32} {call : Send} (hm : Plenty m)
    (hid : Answers id call) : idMade m.oom call = true := by
  cases call with
  | respond result i => simp [idMade, hm 2, hm 3]
  | respond_error code message i => simp [idMade, hm 7, hm 8]
  | notify method params => exact hid.elim

/-- The id of an answer is the id of its call, if it could be made. -/
theorem id_of_answer {p : Platform} {call : Send} {m : Machine} {frame : Json} {id : Int32}
    (hid : Answers id call) (hvalid : Send.ValidIn m.json call)
    (hv : (call.object p m).bind (call.ready p m).json.read = some frame) :
    (frame.get "id").isSome = idMade m.oom call ∧
      ∀ j, frame.get "id" = some j → j = .integer id.toInt64 := by
  have hlast : ∀ (key : String) (v1 v2 : Option Json), "id" ≠ key →
      (twoMembers key v1 "id" v2).get "id" = v2 := by
    intro key v1 v2 hk
    rw [twoMembers_get, if_neg hk, if_pos rfl, Option.none_or]
  cases call with
  | respond result i =>
    have hid : i = id := hid
    subst hid
    obtain ⟨_, v1, v2, rfl, _, hs2, _, hv2⟩ :=
      responseObject_read (fenced_of_closed hvalid.1) (below_of_live hvalid.2) hv
    rw [hlast _ v1 v2 (by decide)]
    exact ⟨hs2, hv2⟩
  | respond_error code message i =>
    have hid : i = id := hid
    subst hid
    obtain ⟨_, v1, v2, rfl, _, hs2, _, hv2⟩ := errorObject_read (fenced_of_closed hvalid) hv
    rw [hlast _ v1 v2 (by decide)]
    exact ⟨hs2, hv2⟩
  | notify method params => exact hid.elim

/-! ## The answer to a request -/

/-- For a request with the id `i`, a handler was given this id. -/
def Given (env : Env H) (c : Conn) (i : Int64) (id : Int32) : Prop :=
  ∃ w cb buffer call w' out method_name params, cb.user = some c ∧
    cb.reason = .receive buffer ∧ callIn env.platform.lib buffer = some call ∧
    call.id = some i ∧ step env w (.callback cb) = .ok (w', out) ∧
    .onmethod c method_name params id ∈ out

/-- User code answers a request with the id that its handler was given, at once or at any time
later. The object of the answer is sent in this message. -/
def Responds (env : Env H) (c : Conn) (i : Int64) (answer : Send) (m : Machine)
    (object : Option Json) (message : Addr × Bytes) : Prop :=
  ∃ id, Given env c i id ∧ Answers id answer ∧
    MadeBy env.platform c answer m object (some message)

/-- The bytes of the message are the text of a frame with this id. -/
def Carries (lib : JsonLib) (object : Option Json) (message : Addr × Bytes) (id : Json) : Prop :=
  ∃ frame, object = some frame ∧ lib.dumps frame = some message.2 ∧ frame.get "id" = some id

/-- The object that the answer builds is there, does not contain itself, and has a text. -/
def HasText (p : Platform) (answer : Send) (m : Machine) : Prop :=
  (((answer.object p m).bind (answer.ready p m).json.read).bind p.lib.dumps).isSome

theorem given_eq {env : Env H} {c : Conn} {i : Int64} {id : Int32} (h : Given env c i id) :
    id = i.toInt32 := by
  obtain ⟨w, cb, buffer, call, w', out, method_name, params, hu, hr, hcall, hid, hstep, he⟩ := h
  obtain ⟨wsi, reason, user, has_protocol⟩ := cb
  simp only at hu hr
  subst hu hr
  have hmem : .onmethod c method_name params id ∈ calls out :=
    List.mem_filter.mpr ⟨he, rfl⟩
  rw [step_calls hstep] at hmem
  simp only [callOfInput, frameIn, Option.bind_some, callEvent, hcall, Option.map_some,
    Option.toList_some, List.mem_singleton, Call.event, hid] at hmem
  cases hmem
  rfl

/-- The message of an answer with a text carries its id, if this could be made. -/
theorem responds_carries {env : Env H} {c : Conn} {i : Int64} {answer : Send} {m : Machine}
    {object : Option Json} {message : Addr × Bytes}
    (h : Responds env c i answer m object message) (id : Json) :
    Carries env.platform.lib object message id ↔
      id = .integer i.toInt32.toInt64 ∧ idMade m.oom answer = true ∧
        HasText env.platform answer m := by
  obtain ⟨given, hgiven, hanswers, hmade⟩ := h
  rw [given_eq hgiven] at hanswers
  have hobject := hmade.object_eq.1
  unfold HasText
  rw [← hobject]
  constructor
  · rintro ⟨frame, rfl, hdumps, hid⟩
    obtain ⟨hthere, hvalue⟩ := id_of_answer hanswers hmade.valid hobject.symm
    rw [hid] at hthere
    exact ⟨hvalue _ hid, hthere.symm, by rw [Option.bind_some, hdumps]; rfl⟩
  · rintro ⟨rfl, hthere, htext⟩
    obtain ⟨bytes, htext⟩ := Option.isSome_iff_exists.mp htext
    obtain ⟨frame, rfl, hdumps⟩ := Option.bind_eq_some_iff.mp htext
    obtain ⟨hsome, hvalue⟩ := id_of_answer hanswers hmade.valid hobject.symm
    rw [hthere] at hsome
    obtain ⟨j, hj⟩ := Option.isSome_iff_exists.mp hsome
    refine ⟨frame, rfl, ?_, ?_⟩
    · rw [hmade.text_eq, Option.bind_some, hdumps]
      rfl
    · rw [hj, hvalue j hj]

/-- A handler that answers on this connection only with the id that it is given. -/
def Answering (protocol : JrpcProtocol H) (c : Conn) : Prop :=
  ∀ method_name params id,
    AllSends (fun d call => d = c → Answers id call) (protocol.onmethod c method_name params id)

/-- What such a handler sends to the connection of its request is an answer to it. -/
theorem step_responds {env : Env H} {w w' : World H} {cb : Callback} {c : Conn}
    {buffer : Bytes} {call : Call} {i : Int64} {out : List Event} {object : Option Json}
    {message : Addr × Bytes} (hanswering : Answering env.protocol c) (hu : cb.user = some c)
    (hr : cb.reason = .receive buffer) (hcall : callIn env.platform.lib buffer = some call)
    (hid : call.id = some i) (hstep : step env w (.callback cb) = .ok (w', out))
    (hsend : .send c object (some message) ∈ out) :
    ∃ answer m, Responds env c i answer m object message ∧ (Plenty w.mach → Plenty m) := by
  have hsends : ∀ prog, InputCode env prog (.callback cb) →
      AllSends (fun d s => d = c → Answers i.toInt32 s) prog := by
    intro prog hprog
    unfold InputCode UserCode at hprog
    simp only [hu, hr, hcall] at hprog
    obtain ⟨params, rfl⟩ := hprog
    unfold Call.handler
    rw [hid]
    exact hanswering _ _ _
  obtain ⟨answer, m, hanswers, hmade, hplenty⟩ := step_made hsends hstep hsend
  refine ⟨answer, m, ⟨i.toInt32, ?_, hanswers rfl, hmade⟩, hplenty⟩
  have hevent : .onmethod c call.method_name (some call.params) i.toInt32 ∈ calls out := by
    rw [step_calls hstep]
    obtain ⟨wsi, reason, user, has_protocol⟩ := cb
    simp only at hu hr
    subst hu hr
    simp only [callOfInput, frameIn, Option.bind_some, callEvent, hcall, Option.map_some,
      Option.toList_some, List.mem_singleton, Call.event, hid]
  exact ⟨w, cb, buffer, call, w', out, _, _, hu, hr, hcall, hid, hstep,
    (List.mem_filter.mp hevent).1⟩

/-- The message of an answer carries the id of its request just when this fits into a C `int`,
the JSON library makes it, and the object of the answer has a text. The messages of two answers
carry the same id just when the ids of their requests differ by a multiple of 2^32. -/
theorem ids_come_back_iff {env : Env H} {c : Conn} {i j : Int64} {answer1 answer2 : Send}
    {m1 m2 : Machine} {object1 object2 : Option Json} {message1 message2 : Addr × Bytes}
    (h1 : Responds env c i answer1 m1 object1 message1)
    (h2 : Responds env c j answer2 m2 object2 message2) :
    (Carries env.platform.lib object1 message1 (.integer i) ↔
      FitsInt i ∧ idMade m1.oom answer1 = true ∧ HasText env.platform answer1 m1) ∧
      ∀ id1 id2, Carries env.platform.lib object1 message1 id1 →
        Carries env.platform.lib object2 message2 id2 →
          (id1 = id2 ↔ (2 : Int) ^ 32 ∣ i.toInt - j.toInt) := by
  constructor
  · rw [responds_carries h1, Json.integer.injEq, eq_comm, int_id_iff]
  · intro id1 id2 hid1 hid2
    obtain ⟨rfl, _⟩ := (responds_carries h1 id1).mp hid1
    obtain ⟨rfl, _⟩ := (responds_carries h2 id2).mp hid2
    rw [Json.integer.injEq]
    exact int_ids_equal_iff i j

/-! ## Small and large ids -/

def idOf (frame : Json) : Option Int64 := (frame.get "id").bind integerOf

theorem get_of_idOf {frame : Json} {i : Int64} (h : idOf frame = some i) :
    frame.get "id" = some (.integer i) := by
  unfold idOf at h
  obtain ⟨v, hv, hi⟩ := Option.bind_eq_some_iff.mp h
  rw [hv]
  cases v with
  | integer j =>
    cases hi
    rfl
  | _ => cases hi

/-- The id that a message for the connection carries. -/
def sentId (lib : JsonLib) (c : Conn) : Event → Option Int64
  | .send d (some frame) (some message) =>
    if d = c ∧ lib.dumps frame = some message.2 then idOf frame else none
  | _ => none

theorem of_sentId {lib : JsonLib} {c : Conn} {i : Int64} {e : Event}
    (h : sentId lib c e = some i) :
    ∃ object message, e = .send c object (some message) ∧
      Carries lib object message (.integer i) := by
  unfold sentId at h
  split at h
  · rw [Option.ite_none_right_eq_some] at h
    obtain ⟨⟨rfl, hdumps⟩, hid⟩ := h
    exact ⟨_, _, rfl, _, rfl, hdumps, get_of_idOf hid⟩
  · cases h

/-- A request that comes to a server with an answering handler, and its answer. -/
theorem responds_of_test {env : Env Unit} {w : World Unit} {c : Conn} {i : Int64}
    {buffer : Bytes} (hanswering : Answering env.protocol c)
    (hcall : (callIn env.platform.lib buffer).any (fun call => call.id = some i) = true)
    (h : runEnds (step env) w [callbackFor c (.receive buffer)]
      (fun _ out => out.any fun e => (sentId env.platform.lib c e).isSome) = true) :
    ∃ answer m object message id, Responds env c i answer m object message ∧
      (Plenty w.mach → Plenty m) ∧ Carries env.platform.lib object message id := by
  obtain ⟨call, hcall, hid⟩ := (Option.any_eq_true _ _).mp hcall
  obtain ⟨w', out, hrun, htest⟩ := runEnds_spec h
  have hstep := run_one_ok.mp hrun
  obtain ⟨e, he, htest⟩ := List.any_eq_true.mp htest
  obtain ⟨j, htest⟩ := Option.isSome_iff_exists.mp htest
  obtain ⟨object, message, rfl, hcarries⟩ := of_sentId htest
  obtain ⟨answer, m, hresponds, hplenty⟩ := step_responds hanswering rfl rfl hcall
    (of_decide_eq_true hid) hstep he
  exact ⟨answer, m, object, message, _, hresponds, hplenty, hcarries⟩

/-- A server that knows two requests, with these ids. -/
def twoIds (i j : Int64) : Env Unit := sample [callFrame i, callFrame j]

theorem answering_default (server : Nat) (fd : Int32 × Int32) (c : Conn) :
    Answering (jrpc_server_protocol_init server fd : JrpcProtocol H) c :=
  fun _ _ _ => ⟨fun _ => rfl, trivial⟩

/-- The request id 1 comes back as it is, and the request id 2 comes back as another one. -/
theorem ids_come_back_iff_sample :
    ∃ answer1 answer2 m1 m2 object1 object2 message1 message2 id,
      Responds (twoIds 1 2) 7 1 answer1 m1 object1 message1 ∧
      Responds (twoIds 1 2) 7 2 answer2 m2 object2 message2 ∧
      Carries (twoIds 1 2).platform.lib object1 message1 (.integer 1) ∧
      Carries (twoIds 1 2).platform.lib object2 message2 id ∧ id ≠ .integer 1 := by
  have htest : runEnds (step (twoIds 1 2)) sampleStart [callbackFor 7 .established]
      (fun w _ =>
        runEnds (step (twoIds 1 2)) w [receiveFrame 7 (callFrame 1)]
          (fun _ out => out.any fun e => (sentId (twoIds 1 2).platform.lib 7 e).isSome) &&
        runEnds (step (twoIds 1 2)) w [receiveFrame 7 (callFrame 2)]
          (fun _ out => out.any fun e => (sentId (twoIds 1 2).platform.lib 7 e).isSome)) =
      true := by
    decide +kernel
  have hanswering := answering_default (H := Unit) 0 (3, 4) 7
  obtain ⟨w, hist, hrun, htest⟩ := runEnds_spec htest
  obtain ⟨htest1, htest2⟩ := Bool.and_eq_true_iff.mp htest
  obtain ⟨answer1, m1, object1, message1, id1, h1, hplenty, hid1⟩ :=
    responds_of_test (i := 1) hanswering (by decide) htest1
  obtain ⟨answer2, m2, object2, message2, id2, h2, _, hid2⟩ :=
    responds_of_test (i := 2) hanswering (by decide) htest2
  have hm1 : Plenty m1 := hplenty (run_plenty (w := sampleStart) (fun _ => rfl) hrun)
  obtain ⟨hsame, hpair⟩ := ids_come_back_iff h1 h2
  have hcarries : Carries (twoIds 1 2).platform.lib object1 message1 (.integer 1) := by
    refine hsame.mpr ⟨by decide, ?_, ((responds_carries h1 id1).mp hid1).2.2⟩
    obtain ⟨id, _, hanswers, _⟩ := h1
    exact idMade_of_plenty hm1 hanswers
  refine ⟨answer1, answer2, m1, m2, object1, object2, message1, message2, id2, h1, h2, hcarries,
    hid2, fun he => ?_⟩
  have hdvd := (hpair _ _ hcarries hid2).mp he.symm
  revert hdvd
  decide

/-- The ids of the requests among some buffers. -/
def requestIds (lib : JsonLib) (buffers : List Bytes) : List Int64 :=
  buffers.filterMap fun buffer => (callIn lib buffer).bind (·.id)

def frameFor (c : Conn) : Event → Option Json
  | .send d (some frame) (some _) => if d = c then some frame else none
  | _ => none

/-- The frames of the messages for a connection, oldest first. -/
def framesTo (c : Conn) (out : List Event) : List Json := out.filterMap (frameFor c)

/-- The request id 2^32 comes back as 0, and so does the request id 0. -/
theorem large_id_is_cut :
    ∃ w hist object1 object2 message1 message2,
      run (step (twoIds 4294967296 0)) sampleStart [callbackFor 7 .established,
        receiveFrame 7 (callFrame 4294967296), receiveFrame 7 (callFrame 0)] = .ok (w, hist) ∧
      requestIds (twoIds 4294967296 0).platform.lib
        (received 7 [callbackFor 7 .established, receiveFrame 7 (callFrame 4294967296),
          receiveFrame 7 (callFrame 0)]) = [4294967296, 0] ∧
      sends hist = [.send 7 object1 (some message1), .send 7 object2 (some message2)] ∧
      Holds w.mach.heap (w.mach.conns 7).messages [message1, message2] ∧
      ¬ Carries (twoIds 4294967296 0).platform.lib object1 message1 (.integer 4294967296) ∧
      Carries (twoIds 4294967296 0).platform.lib object1 message1 (.integer 0) ∧
      Carries (twoIds 4294967296 0).platform.lib object2 message2 (.integer 0) := by
  have htest : runEnds (step (twoIds 4294967296 0)) sampleStart [callbackFor 7 .established,
      receiveFrame 7 (callFrame 4294967296), receiveFrame 7 (callFrame 0)]
      (fun w hist => decide (w.phase 7 = .established ∧ writtenOn 7 hist = [] ∧
        (sends hist).map (sentId (twoIds 4294967296 0).platform.lib 7) = [some 0, some 0])) =
      true := by
    decide +kernel
  obtain ⟨w, hist, hrun, htest⟩ := runEnds_spec htest
  obtain ⟨hc, hwritten, hids⟩ := of_decide_eq_true htest
  obtain ⟨e1, rest, hsends, hid1, hrest⟩ := List.map_eq_cons_iff.mp hids
  obtain ⟨e2, rest', rfl, hid2, hrest'⟩ := List.map_eq_cons_iff.mp hrest
  rw [List.map_eq_nil_iff.mp hrest'] at hsends
  obtain ⟨object1, message1, rfl, hcarries1⟩ := of_sentId hid1
  obtain ⟨object2, message2, rfl, hcarries2⟩ := of_sentId hid2
  have hstart : Refines (twoIds 4294967296 0) sampleStart outbox.start := start_refines _ _ _ _
  obtain ⟨l, hl, horder, _⟩ := written_then_waiting hstart rfl rfl hrun hc
  have hqueue : l = [message1, message2] := by
    rw [show (twoIds 4294967296 0).wsi_of 7 = 7 from rfl, hwritten, List.nil_append,
      ← sentTo_sends, hsends] at horder
    rw [horder]
    simp [sentTo, sentBy]
  rw [hqueue] at hl
  refine ⟨w, hist, object1, object2, message1, message2, hrun, by decide +kernel, hsends, hl,
    ?_, hcarries1, hcarries2⟩
  rintro ⟨frame, rfl, _, hid⟩
  obtain ⟨frame', he, _, hid'⟩ := hcarries1
  cases he
  rw [hid] at hid'
  cases hid'

end jrpc.service

-- What the chat server promises to those who talk: it goes on whatever memory fails, no two of
-- them have one name, all of them read one log, each request is answered once with its id, and
-- only who is there speaks.
import Jrpc.ChatRoom
import Jrpc.Disposal
import Jrpc.Answers

open heap runs unordered room
open jrpc.json jrpc.message jrpc.queue jrpc.connection jrpc.protocol jrpc.service

namespace jrpc.chatserver

/-! ## A conversation to try the laws on -/

def nameFrame (name : String) (id : Int64) : Json :=
  .object [("method", .string (text "set_name")), ("params", .array [.string (text name)]),
    ("id", .integer id)]

def chatFrame (words : String) : Json :=
  .object [("method", .string (text "chat")), ("params", .array [.string (text words)])]

/-- A new entry comes first. -/
def newestFirst : Hashing Conn Chatter := ⟨fun _ l => l, fun _ l => List.Perm.refl l⟩

def chatEnv : Env Statics where
  platform := ⟨sampleLib [nameFrame "ann" 42, nameFrame "bob" 43, chatFrame "hi"], ⟨64, 24, 16⟩⟩
  protocol := jrpc_server_protocol_init 0 (3, 4)
  wsi_of c := c
  wsi_injective := fun _ _ h => h

def gets (c : Conn) (reason : Reason) : Callback := ⟨c, reason, some c, true⟩

def getsFrame (c : Conn) (v : Json) : Callback := gets c (.receive ((print v).getD []))

/-- Two chatters take names, the second one after a name that is taken already. One of them
speaks. -/
def smallTalk : List Callback :=
  [gets 7 .established, getsFrame 7 (nameFrame "ann" 42), gets 8 .established,
    getsFrame 8 (nameFrame "ann" 42), getsFrame 8 (nameFrame "bob" 43),
    getsFrame 7 (chatFrame "hi")]

def never : Nat → Bool := fun _ => false

theorem sampleLib_reads {known : List Json} (h : ∀ v ∈ known, ∀ t ∈ textsIn v,
    ((cString t).all fun b => b < 128) = true) : ReadsUtf8 (sampleLib known) where
  ascii _ h := h
  loaded buffer v hload := by
    have hfind : known.find? (fun v => print v == some buffer) = some v := hload
    exact h v (List.mem_of_find?_eq_some hfind)

theorem reads_sample : ReadsUtf8 chatEnv.platform.lib := sampleLib_reads (by decide)

/-! ## The server goes on -/

/-- Whatever memory fails, in the server or in its handlers, each callback that may come ends
well. Between two callbacks the chatters are just the connections that are open, each with its
own connection, and all JSON values are freed. So are all messages when all are gone. -/
theorem chat_server_goes_on (hashing : Hashing Conn Chatter) (env : Env Statics)
    (oom fails : Nat → Bool) {cbs : List Callback} {w : World Statics} {hist : List Event}
    (hr : run (step (chatServer hashing env)) (chatStart oom fails) (cbs.map .callback) =
      .ok (w, hist)) :
    (∀ cb, Deliverable (chatServer hashing env) w cb →
        ∃ w' out, step (chatServer hashing env) w (.callback cb) = .ok (w', out)) ∧
      (∀ c, (w.user.chatters.find c).isSome ↔ w.phase c = .established) ∧
      (∀ c who, w.user.chatters.find c = some who → who.connection = c) ∧
      w.mach.json = .empty ∧
      ((∀ c, w.phase c ≠ .established) → ∀ a, ¬ w.mach.heap.Live a) := by
  obtain ⟨⟨b, hb⟩, hjson, hpresent⟩ := (start_chats hr).chatting
  refine ⟨fun cb hd => ?_, hpresent.opened, hpresent.own, hjson, fun hc a => hb.no_live hc a⟩
  obtain ⟨w', out, hs, _⟩ := callback_chats ⟨⟨b, hb⟩, hjson, hpresent⟩ hd
  exact ⟨w', out, hs⟩

/-- Each allocation fails, and still both are there. -/
theorem chat_server_goes_on_sample :
    ∃ w hist, run (step (chatServer newestFirst chatEnv)) (chatStart (fun _ => true) fun _ => true)
        (smallTalk.map .callback) = .ok (w, hist) ∧
      (w.user.chatters.find 7).isSome ∧ (w.user.chatters.find 8).isSome ∧
      w.mach.json = .empty := by
  have htest : runEnds (step (chatServer newestFirst chatEnv))
      (chatStart (fun _ => true) fun _ => true) (smallTalk.map .callback)
      (fun w _ => decide (w.phase 7 = .established ∧ w.phase 8 = .established)) = true := by
    decide +kernel
  obtain ⟨w, hist, hrun, htest⟩ := runEnds_spec htest
  obtain ⟨h7, h8⟩ := of_decide_eq_true htest
  obtain ⟨_, hpresent, _, hjson, _⟩ := chat_server_goes_on _ _ _ _ hrun
  exact ⟨w, hist, hrun, (hpresent 7).mpr h7, (hpresent 8).mpr h8, hjson⟩

variable {hashing : Hashing Conn Chatter} {env : Env Statics}

/-! ## Names -/

/-- Whatever memory fails, the chatters are the room after all acts of the run, each of which was
allowed in it. No two of them have one name that they chose, and each connection was sent one
message, or one that could not be made, for each line that the room tells it. -/
theorem names_are_unique (hashing : Hashing Conn Chatter) (env : Env Statics)
    (oom fails : Nat → Bool) {cbs : List Callback} {w : World Statics} {hist : List Event}
    (hr : run (step (chatServer hashing env)) (chatStart oom fails) (cbs.map .callback) =
      .ok (w, hist)) :
    (∀ c d who other, w.user.chatters.find c = some who → w.user.chatters.find d = some other →
        who.name = other.name → who.name ≠ [] → c = d) ∧
      roomOf w.user.chatters = Room.empty.after (acts env.platform.lib (cbs.map .callback)) ∧
      Room.empty.AllowsAll (acts env.platform.lib (cbs.map .callback)) ∧
      ∀ c, (sendsTo c hist).length =
        (Room.hears c .empty (acts env.platform.lib (cbs.map .callback))).length := by
  have h := start_chats hr
  have hroom : roomOf w.user.chatters =
      Room.empty.after (acts env.platform.lib (cbs.map .callback)) := h.room
  have hname : ∀ c who, w.user.chatters.find c = some who →
      (roomOf w.user.chatters).name c = some who.name := by
    intro c who hc
    unfold roomOf
    dsimp only
    rw [hc, Option.map_some]
  refine ⟨fun c d who other hc hd he hne => ?_, hroom, h.allowed, fun c => ?_⟩
  · have hapart : (roomOf w.user.chatters).Apart := by
      rw [hroom]
      exact Room.apart_after Room.apart_empty _
    exact hapart c d who.name (hname c who hc) (he ▸ hname d other hd) hne
  · exact (h.hears c).length_eq.symm

theorem names_are_unique_sample :
    ∃ w hist, run (step (chatServer newestFirst chatEnv)) (chatStart never never)
        (smallTalk.map .callback) = .ok (w, hist) ∧ (sendsTo 8 hist).length = 4 ∧
      (Room.hears 8 .empty (acts chatEnv.platform.lib (smallTalk.map .callback))).length = 4 := by
  have htest : runEnds (step (chatServer newestFirst chatEnv)) (chatStart never never)
      (smallTalk.map .callback) (fun _ hist => decide ((sendsTo 8 hist).length = 4)) = true := by
    decide +kernel
  obtain ⟨w, hist, hrun, htest⟩ := runEnds_spec htest
  have hlength := of_decide_eq_true htest
  obtain ⟨_, _, _, hsends⟩ := names_are_unique _ _ _ _ hrun
  exact ⟨w, hist, hrun, hlength, (hsends 8).symm.trans hlength⟩

/-! ## What is heard -/

/-- When no allocation fails, each connection is sent just the frames of the lines that the room
tells it, in this order. -/
theorem chat_server_is_a_room (hashing : Hashing Conn Chatter) (env : Env Statics)
    (hlib : ReadsUtf8 env.platform.lib) {oom fails : Nat → Bool} (hoom : ∀ n, oom n = false)
    (hfails : ∀ n, fails n = false) {cbs : List Callback} {w : World Statics} {hist : List Event}
    (hr : run (step (chatServer hashing env)) (chatStart oom fails) (cbs.map .callback) =
      .ok (w, hist)) (c : Conn) :
    framesTo c hist =
      (Room.hears c .empty (acts env.platform.lib (cbs.map .callback))).map lineFrame :=
  ((start_chats hr).hears c).frames (full_start hlib hoom hfails)

theorem chat_server_is_a_room_sample :
    ∃ w hist, run (step (chatServer newestFirst chatEnv)) (chatStart never never)
        (smallTalk.map .callback) = .ok (w, hist) ∧
      framesTo 7 hist =
        (Room.hears 7 .empty (acts chatEnv.platform.lib (smallTalk.map .callback))).map lineFrame ∧
      (framesTo 7 hist).map print = [.granted (text "ann") 42, .arrived (text "ann"),
        .arrived (text "bob"), .message (text "ann") (text "hi")].map
          fun l : ChatLine => print (lineFrame l) := by
  have htest : runEnds (step (chatServer newestFirst chatEnv)) (chatStart never never)
      (smallTalk.map .callback) (fun _ hist => decide ((framesTo 7 hist).map print =
        [.granted (text "ann") 42, .arrived (text "ann"), .arrived (text "bob"),
          .message (text "ann") (text "hi")].map fun l : ChatLine => print (lineFrame l))) =
      true := by decide +kernel
  obtain ⟨w, hist, hrun, htest⟩ := runEnds_spec htest
  exact ⟨w, hist, hrun, chat_server_is_a_room _ _ reads_sample (fun _ => rfl) (fun _ => rfl) hrun 7,
    of_decide_eq_true htest⟩

/-! ## One log -/

/-- A closed callback that ends well leaves its session closed. -/
theorem closed_of_step {H : Type} {env : Env H} {w w' : World H} {wsi : Wsi} {c : Conn} {p : Bool}
    {out : List Event} (hs : step env w (.callback ⟨wsi, .closed, some c, p⟩) = .ok (w', out)) :
    w'.phase c = .closed := by
  have hd := deliverable_of_step hs
  obtain ⟨haside, _, _⟩ | ⟨d, w1, w2, _, _, hu, _, _, _, rfl, _⟩ := step_cases hs
  · have hp : p = true := hd.2.2
    subst hp
    simp at haside
  · cases hu
    exact Function.update_self _ _ _

/-- A session that is established has not left. -/
theorem has_not_left {H : Type} {env : Env H} {w w' : World H} (h : ∃ b, Refines env w b)
    {is : List (Input H)} {out : List Event} (hr : run (step env) w is = .ok (w', out)) {c : Conn}
    (hc : w'.phase c = .established) {wsi : Wsi} {p : Bool} :
    .callback ⟨wsi, .closed, some c, p⟩ ∉ is := by
  intro hmem
  obtain ⟨before, after, rfl⟩ := List.append_of_mem hmem
  obtain ⟨w1, _, _, hbefore, hrest, _⟩ := run_append_ok.mp hr
  obtain ⟨w2, _, _, hs, hafter, _⟩ := run_cons_ok.mp hrest
  obtain ⟨b, hb⟩ := h
  obtain ⟨_, b1, hx1⟩ := run_explains hb hbefore
  obtain ⟨b2, hb2⟩ := step_refines ⟨b1, hx1.refines⟩ hs
  obtain ⟨_, b3, hx3⟩ := run_explains hb2 hafter
  have hclosed : b2.phase c = .closed := by
    rw [← hb2.phase]
    exact closed_of_step hs
  have hstill := outbox.closed_stays_replay hx3.replay hclosed
  rw [← hx3.refines.phase, hc] at hstill
  cases hstill

theorem enter_of_act {lib : JsonLib} {cb : Callback} {c : Conn}
    (h : actOf lib (.callback cb) = some (.enter c)) :
    cb.user = some c ∧ cb.reason = .established := by
  unfold actOf at h
  split at h
  · rename_i hcb
    cases hcb
    cases h
    exact ⟨rfl, rfl⟩
  · cases h
  · obtain ⟨call, _, hact⟩ := Option.bind_eq_some_iff.mp h
    cases callAct_kind hact
  · cases h

theorem leave_not_in_acts {lib : JsonLib} {is : List (Input Statics)} {c : Conn}
    (h : ∀ wsi p, .callback ⟨wsi, .closed, some c, p⟩ ∉ is) : .leave c ∉ acts lib is := by
  intro hmem
  obtain ⟨i, hi, hact⟩ := List.mem_filterMap.mp hmem
  unfold actOf at hact
  split at hact
  · cases hact
  · cases hact
    exact h _ _ hi
  · obtain ⟨call, _, hact⟩ := Option.bind_eq_some_iff.mp hact
    cases callAct_kind hact
  · cases hact

/-- Each connection enters once at most, and none that is fresh did. -/
theorem enters_once {oom fails : Nat → Bool} {cbs : List Callback} {w : World Statics}
    {hist : List Event} (hr : run (step (chatServer hashing env)) (chatStart oom fails)
      (cbs.map .callback) = .ok (w, hist)) (c : Conn) :
    Room.entries c (acts env.platform.lib (cbs.map .callback)) ≤ 1 ∧
      (w.phase c = .fresh → Room.entries c (acts env.platform.lib (cbs.map .callback)) = 0) := by
  induction cbs using List.reverseRecOn generalizing w hist with
  | nil => exact ⟨Nat.zero_le 1, fun _ => rfl⟩
  | append_singleton cbs cb ih =>
    rw [List.map_append] at hr
    obtain ⟨w1, o, o', hbefore, hs, rfl⟩ := run_snoc_ok.mp hr
    obtain ⟨honce, hfresh⟩ := ih hbefore
    have hbefore := (start_chats hbefore).chatting
    have hstep := step_chats hbefore hs
    have hsplit : acts env.platform.lib (cbs.map .callback ++ [.callback cb]) =
        acts env.platform.lib (cbs.map .callback) ++
          (actOf env.platform.lib (.callback cb)).toList := by
      rw [← acts_one]
      exact List.filterMap_append
    rw [List.map_append, List.map_singleton, hsplit, Room.entries_append]
    by_cases hact : actOf env.platform.lib (.callback cb) = some (.enter c)
    · obtain ⟨hu, hreason⟩ := enter_of_act hact
      rw [hact, hfresh (fresh_of_established hu hreason hs)]
      refine ⟨Nat.le_of_eq (by simp [Room.entries, Room.enters]), fun hc => ?_⟩
      -- it is one of the chatters now
      have hroom := hstep.room
      rw [acts_one, show actOf (chatServer hashing env).platform.lib (.callback cb) =
        some (.enter c) from hact] at hroom
      have hmember : ((roomOf w.user.chatters).name c).isSome := by
        rw [hroom]
        simp [Room.after, Room.next]
      rw [roomOf_member, hstep.chatting.present.opened, hc] at hmember
      cases hmember
    · have hnone : Room.entries c (actOf env.platform.lib (.callback cb)).toList = 0 := by
        rw [Room.entries_eq_zero, Option.mem_toList]
        exact hact
      rw [hnone, Nat.add_zero]
      refine ⟨honce, fun hc => hfresh ?_⟩
      obtain ⟨b, hb⟩ := hbefore.refines
      obtain ⟨xs, b', hx⟩ := run_explains hb (run_one_ok.mpr hs)
      rw [hb.phase]
      exact outbox.was_fresh_replay hx.replay (hx.refines.phase ▸ hc)

/-- A frame with a method. -/
def isNotice (frame : Json) : Bool := (frame.get "method").isSome

/-- The notifications that are sent to a connection, oldest first. -/
def notices (c : Conn) (out : List Event) : List Json := (framesTo c out).filter isNotice

theorem isNotice_lineFrame (l : ChatLine) : isNotice (lineFrame l) = Room.isPost l := by
  cases l <;> rfl

theorem notices_eq {c : Conn} {out : List Event} {lines : List ChatLine}
    (h : framesTo c out = lines.map lineFrame) :
    notices c out = (lines.filter Room.isPost).map lineFrame := by
  unfold notices
  rw [h, List.filter_map, show isNotice ∘ lineFrame = Room.isPost from funext isNotice_lineFrame]

/-- The notifications of an open connection are the end of the log of the room. -/
theorem notices_suffix (hlib : ReadsUtf8 env.platform.lib) {oom fails : Nat → Bool}
    (hoom : ∀ n, oom n = false) (hfails : ∀ n, fails n = false) {cbs : List Callback}
    {w : World Statics} {hist : List Event} (hr : run (step (chatServer hashing env))
      (chatStart oom fails) (cbs.map .callback) = .ok (w, hist)) {c : Conn}
    (hc : w.phase c = .established) :
    notices c hist <:+
      (Room.log .empty (acts env.platform.lib (cbs.map .callback))).map lineFrame := by
  have h := start_chats hr
  have hframes := (h.hears c).frames (full_start hlib hoom hfails)
  rw [notices_eq hframes]
  refine List.IsSuffix.map lineFrame (Room.members_hear_a_suffix (leave_not_in_acts ?_))
  intro wsi p
  exact has_not_left ⟨_, start_refines _ _ _ _⟩ hr hc

/-- Of two connections that are open, one was sent just the last of the notifications that the
other one was sent: from the moment on when both are there, they are sent the same ones in the
same order. -/
theorem chatters_agree (hashing : Hashing Conn Chatter) (env : Env Statics)
    (hlib : ReadsUtf8 env.platform.lib) {oom fails : Nat → Bool} (hoom : ∀ n, oom n = false)
    (hfails : ∀ n, fails n = false) {cbs : List Callback} {w : World Statics} {hist : List Event}
    (hr : run (step (chatServer hashing env)) (chatStart oom fails) (cbs.map .callback) =
      .ok (w, hist)) {c d : Conn} (hc : w.phase c = .established) (hd : w.phase d = .established) :
    notices c hist <:+ notices d hist ∨ notices d hist <:+ notices c hist :=
  List.suffix_or_suffix_of_suffix (notices_suffix hlib hoom hfails hr hc)
    (notices_suffix hlib hoom hfails hr hd)

/-- The second chatter missed the arrival of the first one. -/
theorem chatters_agree_sample :
    ∃ w hist, run (step (chatServer newestFirst chatEnv)) (chatStart never never)
        (smallTalk.map .callback) = .ok (w, hist) ∧ (notices 7 hist).length = 3 ∧
      (notices 8 hist).length = 2 ∧ notices 8 hist <:+ notices 7 hist := by
  have htest : runEnds (step (chatServer newestFirst chatEnv)) (chatStart never never)
      (smallTalk.map .callback) (fun w hist => decide (w.phase 7 = .established ∧
        w.phase 8 = .established ∧ (notices 7 hist).length = 3 ∧
        (notices 8 hist).length = 2)) = true := by decide +kernel
  obtain ⟨w, hist, hrun, htest⟩ := runEnds_spec htest
  obtain ⟨h7, h8, hlength7, hlength8⟩ := of_decide_eq_true htest
  rcases chatters_agree _ _ reads_sample (fun _ => rfl) (fun _ => rfl) hrun h7 h8 with h | h
  · have hle := h.length_le
    omega
  · exact ⟨w, hist, hrun, hlength7, hlength8, h⟩

/-! ## Who speaks -/

/-- There is one log, and each open connection was sent the end of it. In the log, whoever speaks
or leaves under a name arrived before under this name and has not gone since. -/
theorem only_who_arrived_speaks (hashing : Hashing Conn Chatter) (env : Env Statics)
    (hlib : ReadsUtf8 env.platform.lib) {oom fails : Nat → Bool} (hoom : ∀ n, oom n = false)
    (hfails : ∀ n, fails n = false) {cbs : List Callback} {w : World Statics} {hist : List Event}
    (hr : run (step (chatServer hashing env)) (chatStart oom fails) (cbs.map .callback) =
      .ok (w, hist)) :
    ∃ log : List ChatLine, Room.Orderly [] log ∧
      ∀ c, w.phase c = .established → notices c hist <:+ log.map lineFrame := by
  refine ⟨Room.log .empty (acts env.platform.lib (cbs.map .callback)), ?_, fun c hc => ?_⟩
  · exact Room.only_who_is_there_speaks Room.apart_empty (fun k name hk => (by cases hk)) _
  · exact notices_suffix hlib hoom hfails hr hc

theorem only_who_arrived_speaks_sample :
    ∃ w hist, ∃ log : List ChatLine, run (step (chatServer newestFirst chatEnv))
        (chatStart never never) (smallTalk.map .callback) = .ok (w, hist) ∧
      (notices 7 hist).length = 3 ∧ Room.Orderly [] log ∧
      notices 7 hist <:+ log.map lineFrame := by
  have htest : runEnds (step (chatServer newestFirst chatEnv)) (chatStart never never)
      (smallTalk.map .callback) (fun w hist => decide (w.phase 7 = .established ∧
        (notices 7 hist).length = 3)) = true := by decide +kernel
  obtain ⟨w, hist, hrun, htest⟩ := runEnds_spec htest
  obtain ⟨h7, hlength⟩ := of_decide_eq_true htest
  obtain ⟨log, horderly, hpart⟩ :=
    only_who_arrived_speaks _ _ reads_sample (fun _ => rfl) (fun _ => rfl) hrun
  exact ⟨w, hist, log, hrun, hlength, horderly, hpart 7 h7⟩

/-! ## Answers -/

theorem idOf_lineFrame (l : ChatLine) : idOf (lineFrame l) = (Room.ticketOf l).map (·.toInt64) := by
  cases l <;> rfl

/-- The requests of a connection are the calls with an id that it makes. -/
theorem requestBy_callAct (c d : Conn) (call : Call) :
    (callAct d call).bind (Room.requestBy c) =
      if d = c then call.id.map (·.toInt32) else none := by
  unfold callAct
  rcases call.id with _ | i
  · have hnone : (noticeAct d call.method_name call.params).bind (Room.requestBy c) = none := by
      unfold noticeAct
      split
      · rcases firstText call.params with _ | words <;> rfl
      · rfl
    simpa using hnone
  · unfold requestAct
    simp only [Option.bind_some, Option.map_some, eq_comm (a := d)]
    split
    · split <;> rfl
    · rfl

theorem request_of_act (lib : JsonLib) (c : Conn) (i : Input Statics) :
    (actOf lib i).bind (Room.requestBy c) =
      ((requestIn lib i).filter fun r => r.1 = c).map (·.2.toInt32) := by
  rcases i with ⟨wsi, reason, user, p⟩ | prog
  · rcases user with _ | d
    · cases reason <;> rfl
    · cases reason with
      | receive buffer =>
        simp only [actOf, requestIn, frameIn, Option.bind_some, Option.bind_assoc,
          requestBy_callAct]
        rcases callIn lib buffer with _ | call
        · rfl
        · rcases hid : call.id with _ | id
          · simp [hid]
          · by_cases hd : d = c <;> simp [hid, hd, Option.filter_some]
      | _ => rfl
  · rfl

theorem requests_of_acts (lib : JsonLib) (c : Conn) (is : List (Input Statics)) :
    (acts lib is).filterMap (Room.requestBy c) =
      (requestIds lib (received c is)).map (·.toInt32) := by
  rw [← requests_on]
  unfold acts
  induction is with
  | nil => rfl
  | cons i is ih =>
    have hi := request_of_act lib c i
    rw [List.filterMap_filterMap] at ih ⊢
    rw [List.filterMap_cons, List.filterMap_cons, ih, hi]
    rcases requestIn lib i with _ | r
    · rfl
    · by_cases hr : r.1 = c <;> simp [hr, Option.filter_some]

/-- Each request that comes on a connection is answered once on this connection, in the order in
which they came and with their ids cut to a C `int`. -/
theorem each_request_is_answered_once (hashing : Hashing Conn Chatter) (env : Env Statics)
    (hlib : ReadsUtf8 env.platform.lib) {oom fails : Nat → Bool} (hoom : ∀ n, oom n = false)
    (hfails : ∀ n, fails n = false) {cbs : List Callback} {w : World Statics} {hist : List Event}
    (hr : run (step (chatServer hashing env)) (chatStart oom fails) (cbs.map .callback) =
      .ok (w, hist)) (c : Conn) :
    (framesTo c hist).filterMap idOf =
      (requestIds env.platform.lib
        (received c (cbs.map (.callback : Callback → Input Statics)))).map
        fun i => i.toInt32.toInt64 := by
  rw [((start_chats hr).hears c).frames (full_start hlib hoom hfails), List.filterMap_map]
  have hticket : idOf ∘ lineFrame = fun l => (Room.ticketOf l).map (·.toInt64) :=
    funext idOf_lineFrame
  rw [hticket, ← List.map_filterMap, roomOf_start, Room.each_request_is_answered,
    requests_of_acts, List.map_map]
  rfl

theorem each_request_is_answered_once_sample :
    ∃ w hist, run (step (chatServer newestFirst chatEnv)) (chatStart never never)
        (smallTalk.map .callback) = .ok (w, hist) ∧
      (framesTo 8 hist).filterMap idOf = [42, 43] := by
  have htest : runEnds (step (chatServer newestFirst chatEnv)) (chatStart never never)
      (smallTalk.map .callback) (fun _ _ => true) = true := by decide +kernel
  obtain ⟨w, hist, hrun, _⟩ := runEnds_spec htest
  refine ⟨w, hist, hrun, ?_⟩
  rw [each_request_is_answered_once _ _ reads_sample (fun _ => rfl) (fun _ => rfl) hrun 8]
  decide +kernel

end jrpc.chatserver

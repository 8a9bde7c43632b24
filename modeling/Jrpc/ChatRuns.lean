-- Runs of the chat server. The map of chatters holds just the connections that are open, no
-- JSON value is left between two callbacks, and every callback that may come ends well. What
-- each connection is sent is what the room tells it.
import Jrpc.Chatters
import Jrpc.Memory

open heap runs unordered room
open jrpc.json jrpc.message jrpc.queue jrpc.connection jrpc.protocol jrpc.service

namespace jrpc.chatserver

/-! ## A store with a request in it -/

theorem live_grown {s t : JsonStore} (h : Grown s t) {r : JsonRef} (hr : s.Live r) : t.Live r := by
  cases r with
  | node a =>
    obtain ⟨c, hc⟩ := Arena.live_iff.mp hr
    exact Arena.live_iff.mpr ⟨c, (h.same a (Arena.lt_next_of_cell hc)).trans hc⟩
  | _ => trivial

/-- A new node that holds references to live nodes. -/
theorem closed_new {s : JsonStore} (hs : s.Closed) {node : JsonNode}
    (hnode : ∀ r ∈ node.children, s.Live r) :
    (s.new node).1.Closed ∧ (s.new node).1.Live (s.new node).2 := by
  have hgrown := grown_new s node
  refine ⟨fun a _ r hr => ?_, Arena.live_iff.mpr ⟨_, new_cells_self s node⟩⟩
  by_cases ha : a = s.nodes.next
  · rw [ha, childrenAt_eq (new_cells_self s node)] at hr
    exact live_grown hgrown (hnode r hr)
  · have hr' : r ∈ s.childrenAt a := by
      unfold JsonStore.childrenAt at hr ⊢
      rwa [new_cells_ne ha] at hr
    have hlt : a < s.nodes.next := by
      by_contra hn
      unfold JsonStore.childrenAt at hr'
      rw [s.nodes.bounded a (Nat.le_of_not_lt hn)] at hr'
      cases hr'
    exact live_grown hgrown (hs a hlt r hr')

mutual

theorem closed_load : ∀ (v : Json) {s : JsonStore}, s.Closed →
    (load v s).1.Closed ∧ (load v s).1.Live (load v s).2
  | .null, _, hs => ⟨hs, trivial⟩
  | .true, _, hs => ⟨hs, trivial⟩
  | .false, _, hs => ⟨hs, trivial⟩
  | .integer _, _, hs => closed_new hs (fun _ hr => by cases hr)
  | .real _, _, hs => closed_new hs (fun _ hr => by cases hr)
  | .string _, _, hs => closed_new hs (fun _ hr => by cases hr)
  | .array vs, _, hs => closed_new (closed_loadList vs hs).1 (closed_loadList vs hs).2
  | .object ms, _, hs => closed_new (closed_loadMembers ms hs).1 (closed_loadMembers ms hs).2

theorem closed_loadList : ∀ (vs : List Json) {s : JsonStore}, s.Closed →
    (loadList vs s).1.Closed ∧ ∀ r ∈ (loadList vs s).2, (loadList vs s).1.Live r
  | [], _, hs => ⟨hs, fun _ hr => by cases hr⟩
  | v :: vs, s, hs => by
    obtain ⟨hfirst, hlive⟩ := closed_load v hs
    obtain ⟨hrest, hall⟩ := closed_loadList vs hfirst
    refine ⟨hrest, fun r hr => ?_⟩
    rcases List.mem_cons.mp hr with rfl | hr
    · exact live_grown (grown_loadList vs _) hlive
    · exact hall r hr

theorem closed_loadMembers : ∀ (ms : List (String × Json)) {s : JsonStore}, s.Closed →
    (loadMembers ms s).1.Closed ∧
      ∀ r ∈ (JsonNode.object (loadMembers ms s).2).children, (loadMembers ms s).1.Live r
  | [], _, hs => ⟨hs, fun _ hr => by cases hr⟩
  | (_, v) :: ms, s, hs => by
    obtain ⟨hfirst, hlive⟩ := closed_load v hs
    obtain ⟨hrest, hall⟩ := closed_loadMembers ms hfirst
    refine ⟨hrest, fun r hr => ?_⟩
    rcases List.mem_cons.mp hr with rfl | hr
    · exact live_grown (grown_loadMembers ms _) hlive
    · exact hall r hr

end

/-! ## What an input is in the room -/

/-- A call that is received from a connection. -/
def callAct (c : Conn) (call : Call) : Option ChatAct :=
  match call.id with
  | some i => some (requestAct c call.method_name call.params i.toInt32)
  | none => noticeAct c call.method_name call.params

/-- What a chatter does while it is one. -/
inductive ByChatter (c : Conn) : ChatAct → Prop
  | rename (name : Bytes) (id : Int32) : ByChatter c (.rename c name id)
  | say (words : Bytes) : ByChatter c (.say c words)
  | mistake (reason : Bytes) (id : Int32) : ByChatter c (.mistake c reason id)

theorem callAct_kind {c : Conn} {call : Call} {a : ChatAct} (h : callAct c call = some a) :
    ByChatter c a := by
  unfold callAct at h
  split at h
  · cases h
    unfold requestAct
    split
    · split
      · exact .rename _ _
      · exact .mistake _ _
    · exact .mistake _ _
  · unfold noticeAct at h
    split at h
    · obtain ⟨words, _, rfl⟩ := Option.map_eq_some_iff.mp h
      exact .say words
    · cases h

def actOf (lib : JsonLib) : Input Statics → Option ChatAct
  | .callback ⟨_, .established, some c, _⟩ => some (.enter c)
  | .callback ⟨_, .closed, some c, _⟩ => some (.leave c)
  | .callback ⟨_, .receive buffer, some c, _⟩ => (callIn lib buffer).bind (callAct c)
  | _ => none

/-! ## The invariant -/

/-- The chatters are the connections that are open. -/
structure Present (phase : Conn → outbox.Phase) (m : UnorderedMap Conn Chatter) : Prop where
  own : ∀ c who, m.find c = some who → who.connection = c
  opened : ∀ c, (m.find c).isSome ↔ phase c = .established

/-- Between two callbacks. -/
structure Chatting (env : Env Statics) (w : World Statics) : Prop where
  refines : ∃ b, Refines env w b
  json : w.mach.json = .empty
  present : Present w.phase w.user.chatters

theorem Present.sound {w : World Statics} {m : UnorderedMap Conn Chatter}
    (h : Present w.phase m) : Sound w m where
  own item hitem := h.own _ _ (UnorderedMap.find_iff.mpr hitem)
  opened item hitem := by
    rw [← h.opened, UnorderedMap.find_iff.mpr hitem]
    rfl

theorem chatting_start (env : Env Statics) (oom fails : Nat → Bool) :
    Chatting env (chatStart oom fails) where
  refines := ⟨_, start_refines env _ _ _⟩
  json := rfl
  present :=
    ⟨fun c who hw => (by cases hw), fun c => ⟨fun hc => (by cases hc), fun hc => (by cases hc)⟩⟩

/-- An act of a chatter leaves the keys of the map alone. -/
theorem present_effect {phase : Conn → outbox.Phase} {m : UnorderedMap Conn Chatter}
    (h : Present phase m) (hashing : Hashing Conn Chatter) {c : Conn} {a : ChatAct}
    (ha : ByChatter c a) : Present phase (effect hashing m a).1 := by
  cases ha with
  | rename name id =>
    dsimp only [effect]
    split
    · exact h
    · refine ⟨fun d who hd => ?_, fun d => ?_⟩
      · rw [renamed, UnorderedMap.find_modify] at hd
        split at hd
        · obtain ⟨old, hold, rfl⟩ := Option.map_eq_some_iff.mp hd
          exact h.own d old hold
        · exact h.own d who hd
      · rw [renamed, UnorderedMap.find_modify, ← h.opened]
        split
        · rw [Option.isSome_map]
        · rfl
  | say words => exact h
  | mistake reason id => exact h

theorem present_enter {phase : Conn → outbox.Phase} {m : UnorderedMap Conn Chatter}
    (h : Present phase m) (hashing : Hashing Conn Chatter) {c : Conn} (hc : phase c = .fresh) :
    Present (Function.update phase c .established) (effect hashing m (.enter c)).1 := by
  have hnone : m.find c = none := by
    rw [Option.eq_none_iff_forall_ne_some]
    intro who hwho
    have hopen : phase c = .established := (h.opened c).mp (by rw [hwho]; rfl)
    rw [hc] at hopen
    cases hopen
  refine ⟨fun d who hd => ?_, fun d => ?_⟩
  · rw [effect, UnorderedMap.find_insert hashing _ hnone] at hd
    split at hd
    · cases hd
      exact Eq.symm ‹d = c›
    · exact h.own d who hd
  · rw [effect, UnorderedMap.find_insert hashing _ hnone]
    by_cases hd : d = c
    · simp [hd]
    · rw [if_neg hd, Function.update_of_ne hd, h.opened]

theorem present_leave {phase : Conn → outbox.Phase} {m : UnorderedMap Conn Chatter}
    (h : Present phase m) (hashing : Hashing Conn Chatter) (c : Conn) :
    Present (Function.update phase c .closed) (effect hashing m (.leave c)).1 := by
  refine ⟨fun d who hd => ?_, fun d => ?_⟩
  · rw [effect, UnorderedMap.find_erase] at hd
    split at hd
    · cases hd
    · exact h.own d who hd
  · rw [effect, UnorderedMap.find_erase]
    by_cases hd : d = c
    · simp [hd]
    · rw [if_neg hd, Function.update_of_ne hd, h.opened]

/-! ## One callback -/

/-- What a callback did. -/
structure Step (env : Env Statics) (hashing : Hashing Conn Chatter) (w : World Statics)
    (i : Input Statics) (w' : World Statics) (out : List Event) : Prop where
  chatting : Chatting env w'
  chatters : w'.user.chatters =
    (effects hashing w.user.chatters (actOf env.platform.lib i)).1
  spoken : SaysAll (NoneFails w ∧
      ∀ x ∈ (effects hashing w.user.chatters (actOf env.platform.lib i)).2,
        TextsOk env.platform.lib x.2)
    (effects hashing w.user.chatters (actOf env.platform.lib i)).2 out
  plenty : NoneFails w → NoneFails w'

/-- What the `switch` of the callback did, before its end. -/
structure Handled (w : World Statics) (result : UnorderedMap Conn Chatter × List (Conn × ChatLine))
    (lib : JsonLib) (w' : World Statics) (out : List Event) : Prop where
  json : w'.mach.json = .empty
  chatters : w'.user.chatters = result.1
  spoken : SaysAll (NoneFails w ∧ ∀ x ∈ result.2, TextsOk lib x.2) result.2 out
  plenty : NoneFails w → NoneFails w'

/-- The end of a callback only asks to write. -/
theorem requestWritable_frame (wsi : Wsi) (c : Conn) (w : World Statics) :
    ∃ pending out, requestWritable wsi c w =
        .ok ({ w with mach := { w.mach with pending } }, out) ∧ sends out = [] := by
  unfold requestWritable
  split
  · exact ⟨w.mach.pending, [], rfl, rfl⟩
  · exact ⟨_, _, rfl, rfl⟩

/-- A callback whose `switch` ends well ends well. -/
theorem step_of_handle {env : Env Statics} {hashing : Hashing Conn Chatter} {w w1 : World Statics}
    (h : Chatting env w) {cb : Callback} {c : Conn} {out : List Event}
    (hd : Deliverable env w cb) (hu : cb.user = some c) (hp : cb.has_protocol = true)
    (hhandle : handle env.platform env.protocol cb.wsi cb.reason c (beforeCallback cb w) =
      .ok (w1, out))
    (hdone : Handled w (effects hashing w.user.chatters (actOf env.platform.lib (.callback cb)))
      env.platform.lib w1 out)
    (hpresent : Present (afterCallback cb w1).phase w1.user.chatters) :
    ∃ w' out, step env w (.callback cb) = .ok (w', out) ∧
      Step env hashing w (.callback cb) w' out := by
  obtain ⟨pending, o, hwritable, hquiet⟩ := requestWritable_frame cb.wsi c w1
  have hstep := step_session hu hp hd
  rw [hhandle, ok_bind] at hstep
  dsimp only at hstep
  rw [hwritable, ok_bind] at hstep
  refine ⟨_, _, hstep, ⟨step_refines h.refines hstep, ?_, ?_⟩, ?_, ?_, ?_⟩
  · rw [← hdone.json]
    obtain ⟨wsi, reason, user, has_protocol⟩ := cb
    cases user <;> cases reason <;> rfl
  · obtain ⟨wsi, reason, user, has_protocol⟩ := cb
    cases user <;> cases reason <;> exact hpresent
  · rw [← hdone.chatters]
    obtain ⟨wsi, reason, user, has_protocol⟩ := cb
    cases user <;> cases reason <;> rfl
  · have hspoken := hdone.spoken
    unfold SaysAll at hspoken ⊢
    rw [sends_append, sends_append, hquiet, List.append_nil,
      show sends [.returned 0] = [] from rfl, List.append_nil]
    exact hspoken
  · intro hw
    obtain ⟨hmach, hfails⟩ := hdone.plenty hw
    obtain ⟨wsi, reason, user, has_protocol⟩ := cb
    cases user <;> cases reason <;> exact ⟨hmach, hfails⟩

theorem Does.handled {env : Env Statics} {w w1 w2 : World Statics}
    {result : UnorderedMap Conn Chatter × List (Conn × ChatLine)} {out : List Event}
    (h : Does env w1 w2 result out) (hjson : w1.mach.json = .empty)
    (hplenty : NoneFails w → NoneFails w1) : Handled w result env.platform.lib w2 out where
  json := h.within.json.trans hjson
  chatters := h.within.chatters
  spoken := h.spoken.weaken fun hf => ⟨hplenty hf.1, hf.2⟩
  plenty hw := h.within.plenty (hplenty hw)

/-- The call of a handler is no send. -/
theorem callHandler_of_exec {p : Platform} {call : Event} {handler : UserProg Statics}
    {w w' : World Statics} {out : List Event} (h : exec p handler w = .ok (w', out)) :
    callHandler p call handler w = .ok (w', call :: out) := by
  unfold callHandler
  rw [h]
  rfl

theorem Handled.called {w w' : World Statics}
    {result : UnorderedMap Conn Chatter × List (Conn × ChatLine)} {lib : JsonLib} {out : List Event}
    (h : Handled w result lib w' out) {call : Event} (hcall : isSend call = false) :
    Handled w result lib w' (call :: out) := by
  refine ⟨h.json, h.chatters, ?_, h.plenty⟩
  have hspoken := h.spoken
  unfold SaysAll at hspoken ⊢
  have hsame : sends (call :: out) = sends out :=
    List.filter_cons_of_neg (by rw [hcall]; exact Bool.false_ne_true)
  rw [hsame]
  exact hspoken

theorem empty_closed : JsonStore.empty.Closed := by
  intro a ha
  exact absurd ha (Nat.not_lt_zero a)

variable {env : Env Statics} {hashing : Hashing Conn Chatter}

theorem established_chats {w : World Statics} (h : Chatting (chatServer hashing env) w) {c : Conn}
    (hd : Deliverable (chatServer hashing env) w ⟨env.wsi_of c, .established, some c, true⟩) :
    ∃ w' out, step (chatServer hashing env) w
        (.callback ⟨env.wsi_of c, .established, some c, true⟩) = .ok (w', out) ∧
      Step (chatServer hashing env) hashing w
        (.callback ⟨env.wsi_of c, .established, some c, true⟩) w' out := by
  obtain ⟨b, hb⟩ := h.refines
  have hfresh : w.phase c = .fresh := hd.2.1
  have hopen := establish_explains hb hfresh env.protocol.server
  obtain ⟨w1, out, hexec, hdoes⟩ := onconnected_does hashing ⟨_, hopen.refines⟩ c
  have hdone : Handled w (effects hashing w.user.chatters (some (.enter c))) env.platform.lib w1
      out := hdoes.handled h.json (fun hw => hw)
  refine step_of_handle h hd rfl rfl (callHandler_of_exec hexec) (hdone.called rfl) ?_
  show Present w1.phase w1.user.chatters
  rw [hdoes.within.phase, hdoes.within.chatters]
  exact present_enter h.present hashing hfresh

theorem closed_chats {w : World Statics} (h : Chatting (chatServer hashing env) w) {c : Conn}
    (hd : Deliverable (chatServer hashing env) w ⟨env.wsi_of c, .closed, some c, true⟩) :
    ∃ w' out, step (chatServer hashing env) w
        (.callback ⟨env.wsi_of c, .closed, some c, true⟩) = .ok (w', out) ∧
      Step (chatServer hashing env) hashing w
        (.callback ⟨env.wsi_of c, .closed, some c, true⟩) w' out := by
  have hopen : w.phase c = .established := hd.2.1
  have hclosed : w.mach.json.Closed := by
    rw [h.json]
    exact empty_closed
  obtain ⟨who, hwho⟩ := Option.isSome_iff_exists.mp ((h.present.opened c).mpr hopen)
  obtain ⟨w1, out, hexec, hdoes⟩ :=
    ondisconnected_does hashing h.refines hclosed h.present.sound hwho
  have hdone : Handled w (effects hashing w.user.chatters (some (.leave c))) env.platform.lib w1
      (.ondisconnected c :: out) :=
    Handled.called (hdoes.handled h.json (fun hw => hw)) rfl
  -- the messages that wait are disposed
  obtain ⟨b, hb⟩ := hdoes.within.refines
  obtain ⟨mach, hclean, _, _⟩ := close_explains hb (hdoes.within.phase ▸ hopen)
  have hframe : ∃ heap messages, mach = w1.mach.setQueue c heap messages := by
    unfold jrpc_connection_cleanup at hclean
    obtain ⟨⟨heap, messages, disposed⟩, _, hclean⟩ := bind_eq_ok.mp hclean
    obtain ⟨rfl, _⟩ := Prod.mk.inj (Except.ok.inj hclean)
    exact ⟨heap, messages, rfl⟩
  obtain ⟨heap, messages, rfl⟩ := hframe
  have hhandle : handle (chatServer hashing env).platform (chatServer hashing env).protocol
      (env.wsi_of c) .closed c w = .ok ({ w1 with mach := w1.mach.setQueue c heap messages },
        .ondisconnected c :: out ++ ((b.queue c).map (·.1)).map .dispose) := by
    unfold handle
    have hcall : callHandler (chatServer hashing env).platform (.ondisconnected c)
        ((chatServer hashing env).protocol.ondisconnected c) w =
          .ok (w1, .ondisconnected c :: out) := callHandler_of_exec hexec
    simp only [hcall, ok_bind, hclean]
  refine step_of_handle h hd rfl rfl hhandle ?_ ?_
  · refine ⟨hdone.json, hdone.chatters, ?_, hdone.plenty⟩
    have hspoken := hdone.spoken
    have hquiet : sends (((b.queue c).map (·.1)).map .dispose) = [] := by
      apply List.filter_eq_nil_iff.mpr
      intro e he
      obtain ⟨message, _, rfl⟩ := List.mem_map.mp he
      exact Bool.false_ne_true
    unfold SaysAll at hspoken ⊢
    rw [sends_append, hquiet, List.append_nil]
    exact hspoken
  · show Present (Function.update w1.phase c .closed) w1.user.chatters
    rw [hdoes.within.phase, hdoes.within.chatters]
    exact present_leave h.present hashing c

/-- The handler that a received call runs. -/
theorem call_does {w : World Statics} (h : ∃ b, Refines (chatServer hashing env) w b)
    (hs : w.mach.json.Closed) (hsound : Sound w w.user.chatters) {c : Conn} {who : Chatter}
    (hwho : w.user.chatters.find c = some who) (call : Call) {r : JsonRef}
    (hr : w.mach.json.read r = some call.params) :
    ∃ w' out, exec env.platform (call.handler (chatServer hashing env).protocol c r) w =
        .ok (w', out) ∧
      Does (chatServer hashing env) w w' (effects hashing w.user.chatters (callAct c call))
        out := by
  unfold Call.handler callAct
  rcases call.id with _ | i
  · exact onnotify_does hashing h hs hsound hwho call.method_name hr
  · exact onmethod_does hashing h hs hsound hwho call.method_name hr i.toInt32

theorem receive_chats {w : World Statics} (h : Chatting (chatServer hashing env) w) {c : Conn}
    {buffer : Bytes}
    (hd : Deliverable (chatServer hashing env) w ⟨env.wsi_of c, .receive buffer, some c, true⟩) :
    ∃ w' out, step (chatServer hashing env) w
        (.callback ⟨env.wsi_of c, .receive buffer, some c, true⟩) = .ok (w', out) ∧
      Step (chatServer hashing env) hashing w
        (.callback ⟨env.wsi_of c, .receive buffer, some c, true⟩) w' out := by
  have hopen : w.phase c = .established := hd.2.1
  rcases hcall : callIn env.platform.lib buffer with _ | call
  · have hact : actOf env.platform.lib
        (.callback ⟨env.wsi_of c, .receive buffer, some c, true⟩) = none := by
      simp [actOf, hcall]
    refine step_of_handle h hd rfl rfl (process_no_call _ c hcall w) ?_ h.present
    show Handled w (effects hashing w.user.chatters (actOf env.platform.lib
      (.callback ⟨env.wsi_of c, .receive buffer, some c, true⟩))) env.platform.lib w []
    rw [hact]
    exact ⟨h.json, rfl, saysAll_nil rfl, fun hw => hw⟩
  · obtain ⟨v, hload, hof⟩ := Option.bind_eq_some_iff.mp hcall
    obtain ⟨who, hwho⟩ := Option.isSome_iff_exists.mp ((h.present.opened c).mpr hopen)
    obtain ⟨r, hr, hprocess⟩ := process_loaded (p := env.platform)
      (chatServer hashing env).protocol c hload hof w
    have hclosed : (w.setJson (load v w.mach.json).1).mach.json.Closed := by
      rw [h.json]
      exact (closed_load v empty_closed).1
    obtain ⟨b, hb⟩ := h.refines
    have hsound : Sound (w.setJson (load v w.mach.json).1) w.user.chatters :=
      ⟨h.present.sound.own, h.present.sound.opened⟩
    obtain ⟨w1, out, hexec, hdoes⟩ :=
      call_does ⟨b, hb.setJson (load v w.mach.json).1⟩ hclosed hsound hwho call hr
    rw [callHandler_of_exec hexec, ok_bind] at hprocess
    have hact : actOf env.platform.lib
        (.callback ⟨env.wsi_of c, .receive buffer, some c, true⟩) = callAct c call := by
      simp [actOf, hcall]
    have hback : json_decref (some (load v w.mach.json).2) w1.mach.json = .empty := by
      rw [hdoes.within.json]
      exact (json_decref_load v w.mach.json).trans h.json
    refine step_of_handle h hd rfl rfl hprocess ?_ ?_
    · have hquiet : isSend (call.event c) = false := by
        unfold Call.event
        cases call.id <;> rfl
      have hdone : Handled w (effects hashing w.user.chatters (callAct c call)) env.platform.lib
          (w1.setJson (json_decref (some (load v w.mach.json).2) w1.mach.json)) out :=
        ⟨hback, hdoes.within.chatters, hdoes.spoken, hdoes.within.plenty⟩
      rw [show actOf (chatServer hashing env).platform.lib _ = callAct c call from hact]
      exact hdone.called hquiet
    · have hpresent : Present w.phase (effects hashing w.user.chatters (callAct c call)).1 := by
        rcases hcase : callAct c call with _ | a
        · exact h.present
        · exact present_effect h.present hashing (callAct_kind hcase)
      show Present w1.phase w1.user.chatters
      rw [hdoes.within.phase, hdoes.within.chatters]
      exact hpresent

/-- A callback in which no handler runs. -/
theorem quiet_chats {w w1 : World Statics} (h : Chatting (chatServer hashing env) w)
    {cb : Callback} {c : Conn} {out : List Event}
    (hd : Deliverable (chatServer hashing env) w cb) (hu : cb.user = some c)
    (hp : cb.has_protocol = true) (hact : actOf env.platform.lib (.callback cb) = none)
    (hhandle : handle (chatServer hashing env).platform (chatServer hashing env).protocol cb.wsi
      cb.reason c (beforeCallback cb w) = .ok (w1, out))
    (hjson : w1.mach.json = w.mach.json) (huser : w1.user = w.user)
    (hphase : (afterCallback cb w1).phase = w.phase) (hout : sends out = [])
    (hplenty : Plenty w.mach → Plenty w1.mach) :
    ∃ w' out, step (chatServer hashing env) w (.callback cb) = .ok (w', out) ∧
      Step (chatServer hashing env) hashing w (.callback cb) w' out := by
  refine step_of_handle h hd hu hp hhandle ?_ ?_
  · rw [show actOf (chatServer hashing env).platform.lib (.callback cb) = none from hact]
    refine ⟨hjson.trans h.json, congrArg (·.chatters) huser, saysAll_nil hout, ?_⟩
    intro hw
    refine ⟨hplenty hw.1, fun n => ?_⟩
    rw [huser]
    exact hw.2 n
  · rw [hphase, huser]
    exact h.present

theorem writeable_chats {w : World Statics} (h : Chatting (chatServer hashing env) w) {c : Conn}
    {result : Int32} (hd : Deliverable (chatServer hashing env) w
      ⟨env.wsi_of c, .server_writeable result, some c, true⟩) :
    ∃ w' out, step (chatServer hashing env) w
        (.callback ⟨env.wsi_of c, .server_writeable result, some c, true⟩) = .ok (w', out) ∧
      Step (chatServer hashing env) hashing w
        (.callback ⟨env.wsi_of c, .server_writeable result, some c, true⟩) w' out := by
  obtain ⟨b, hb⟩ := h.refines
  generalize hw1 : beforeCallback ⟨env.wsi_of c, .server_writeable result, some c, true⟩ w = w1
  have hholds : Holds w1.mach.heap (w1.mach.conns c).messages (b.queue c) := by
    rw [← hw1]
    exact hb.coupled.holds c
  have hcoupled : Coupled w1.mach b.queue := by
    rw [← hw1]
    exact hb.coupled.congr rfl (fun _ => rfl)
  rcases hq : b.queue c with _ | ⟨first, rest⟩
  · have hempty : jrpc_queue_is_empty (w1.mach.conns c).messages = true := by
      rw [is_empty_iff hholds, hq]
      rfl
    have hhandle : handle (chatServer hashing env).platform (chatServer hashing env).protocol
        (env.wsi_of c) (.server_writeable result) c
        (beforeCallback ⟨env.wsi_of c, .server_writeable result, some c, true⟩ w) =
          .ok (w1, []) := by
      rw [hw1]
      simp only [handle, hempty, if_true]
    refine quiet_chats h hd rfl rfl rfl hhandle ?_ ?_ ?_ rfl ?_
    · rw [← hw1]
      rfl
    · rw [← hw1]
      rfl
    · rw [← hw1]
      rfl
    · rw [← hw1]
      exact fun hw => hw
  · have hempty : jrpc_queue_is_empty (w1.mach.conns c).messages = false := by
      rw [is_empty_iff hholds, hq]
      rfl
    obtain ⟨heap, queue, hwrite, _, _⟩ := writeFirst_spec hcoupled hq (env.wsi_of c) result
    have hhandle : handle (chatServer hashing env).platform (chatServer hashing env).protocol
        (env.wsi_of c) (.server_writeable result) c
        (beforeCallback ⟨env.wsi_of c, .server_writeable result, some c, true⟩ w) =
          .ok ({ w1 with mach := w1.mach.setQueue c heap queue },
            [.write (env.wsi_of c) first.1 first.2 result, .dispose first.1]) := by
      rw [hw1]
      simp only [handle, hempty, Bool.false_eq_true, if_false, hwrite, ok_bind]
    refine quiet_chats h hd rfl rfl rfl hhandle ?_ ?_ ?_ rfl ?_
    · rw [← hw1]
      rfl
    · rw [← hw1]
      rfl
    · rw [← hw1]
      rfl
    · rw [← hw1]
      exact fun hw => hw

/-- Every callback that may come ends well, and does what it is in the room. -/
theorem callback_chats {w : World Statics} (h : Chatting (chatServer hashing env) w)
    {cb : Callback} (hd : Deliverable (chatServer hashing env) w cb) :
    ∃ w' out, step (chatServer hashing env) w (.callback cb) = .ok (w', out) ∧
      Step (chatServer hashing env) hashing w (.callback cb) w' out := by
  obtain ⟨wsi, reason, user, has_protocol⟩ := cb
  by_cases ha : user = none ∨ has_protocol = false
  · have hact : actOf env.platform.lib (.callback ⟨wsi, reason, user, has_protocol⟩) = none := by
      rcases ha with rfl | rfl
      · cases reason <;> rfl
      · cases user <;> cases reason <;> first | rfl | simp [Deliverable] at hd
    refine ⟨_, _, step_aside hd ha, h, ?_, ?_, fun hw => hw⟩
    · rw [show actOf (chatServer hashing env).platform.lib _ = none from hact]
      rfl
    · rw [show actOf (chatServer hashing env).platform.lib _ = none from hact]
      apply saysAll_nil
      cases has_protocol <;> cases reason <;> rfl
  · rw [not_or, Bool.not_eq_false] at ha
    obtain ⟨hu, rfl⟩ := ha
    obtain ⟨c, rfl⟩ := Option.ne_none_iff_exists'.mp hu
    obtain ⟨rfl, _⟩ : wsi = env.wsi_of c ∧ True := ⟨hd.1, trivial⟩
    cases reason with
    | established => exact established_chats h hd
    | closed => exact closed_chats h hd
    | receive buffer => exact receive_chats h hd
    | server_writeable result => exact writeable_chats h hd
    | protocol_init => exact quiet_chats h hd rfl rfl rfl rfl rfl rfl rfl rfl (fun hw => hw)
    | raw_rx_file => exact quiet_chats h hd rfl rfl rfl rfl rfl rfl rfl rfl (fun hw => hw)
    | other reason => exact quiet_chats h hd rfl rfl rfl rfl rfl rfl rfl rfl (fun hw => hw)

end jrpc.chatserver

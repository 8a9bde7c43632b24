-- What the page does, whatever its user and the network do: it has one connection at most, its
-- window grows at the top only, and on each connection it asks for a name once and first.
import Jrpc.ChatPage
import Mathlib.Data.List.Induction

open runs
open jrpc.json

namespace jrpc.chatpage

/-! ## What a script can do to the page -/

/-- The window has one post more at most, and nothing else is changed. -/
def Adds (p p' : Page) : Prop := p' = p ∨ ∃ post, p' = { p with content := post :: p.content }

theorem adds_withValue {α : Type} {v : Option α} {k : α → Script} {p : Page}
    (h : ∀ a, Adds p (k a p).page) : Adds p (withValue v k p).page := by
  unfold withValue
  split
  · exact h _
  · exact .inl rfl

theorem adds_insertBefore (post : Post) (p : Page) : Adds p (insertBefore post p).page :=
  .inr ⟨post, rfl⟩

theorem adds_logError (b : Browser) (message : Value) (p : Page) :
    Adds p (logError b message p).page :=
  adds_withValue fun _ => adds_insertBefore _ p

theorem adds_chat (b : Browser) (nickname message : Value) (p : Page) :
    Adds p (chat b nickname message p).page :=
  adds_withValue fun _ => adds_withValue fun _ => adds_insertBefore _ p

theorem adds_announce (b : Browser) (what who : Value) (p : Page) :
    Adds p (announce b what who p).page := by
  refine adds_withValue fun _ => ?_
  split
  · exact adds_insertBefore _ p
  · split
    · exact adds_insertBefore _ p
    · exact adds_withValue fun _ => adds_insertBefore _ p

theorem adds_processNotification (b : Browser) (method params : Value) (p : Page) :
    Adds p (processNotification b method params p).page := by
  unfold processNotification
  split
  · exact adds_withValue fun _ => adds_chat b _ _ p
  · split
    · exact adds_withValue fun _ => adds_announce b _ _ p
    · exact .inl rfl

/-- The connection may be given up after that. -/
def AddsOrHangsUp (p p' : Page) : Prop := Adds p p' ∨ ∃ q, Adds p q ∧ p' = (hangUp q).page

theorem hangs_withValue {α : Type} {v : Option α} {k : α → Script} {p : Page}
    (h : ∀ a, AddsOrHangsUp p (k a p).page) : AddsOrHangsUp p (withValue v k p).page := by
  unfold withValue
  split
  · exact h _
  · exact .inl (.inl rfl)

theorem hangs_andThen {s : Script} {p : Page} (h : Adds p (s p).page) :
    AddsOrHangsUp p (andThen s hangUp p).page := by
  unfold andThen
  split
  · exact .inl h
  · exact .inr ⟨_, h, rfl⟩

theorem processResponse_page (b : Browser) (response : Value) (p : Page) :
    AddsOrHangsUp p (processResponse b response p).page := by
  refine hangs_withValue fun _ => ?_
  split
  · refine hangs_withValue fun _ => ?_
    split
    · exact hangs_withValue fun _ => hangs_andThen (adds_logError b _ p)
    · exact .inl (.inl rfl)
  · exact .inl (.inl rfl)

theorem onmessage_page (b : Browser) (data : Bytes) (p : Page) :
    AddsOrHangsUp p (onmessage b data p).page := by
  refine hangs_withValue (p := p) fun _ => hangs_withValue fun _ => ?_
  split
  · exact hangs_withValue fun _ => .inl (adds_processNotification b _ _ p)
  · refine hangs_withValue fun _ => ?_
    split
    · exact processResponse_page b _ p
    · exact .inl (.inl rfl)

/-! ## One connection -/

/-- A web socket that is open or may become so. -/
def Alive (p : Page) (socket : Nat) : Prop :=
  stateOf p socket = .connecting ∨ stateOf p socket = .opened

/-- Every such web socket is the one that the page knows. -/
def Single (p : Page) : Prop := ∀ socket, Alive p socket → p.ws = some socket

/-- A web socket that is not closed was made. -/
theorem made_of_state {p : Page} {socket : Nat} (h : stateOf p socket ≠ .closed) :
    socket < p.sockets.length := by
  by_contra hn
  apply h
  unfold stateOf
  rw [List.getElem?_eq_none (Nat.le_of_not_lt hn)]
  rfl

theorem stateOf_setState (p : Page) (socket other : Nat) (state : ReadyState) :
    stateOf (setState p socket state) other =
      if other = socket ∧ other < p.sockets.length then state else stateOf p other := by
  unfold stateOf setState
  rw [List.getElem?_set]
  by_cases ho : other = socket
  · subst ho
    by_cases hl : other < p.sockets.length
    · simp [hl]
    · simp [hl]
  · simp [ho, Ne.symm ho]

/-- No other web socket opens when the state of one is set. -/
theorem opened_of_setState {p : Page} {socket other : Nat} {state : ReadyState}
    (hstate : state ≠ .opened) (h : stateOf (setState p socket state) other = .opened) :
    stateOf p other = .opened := by
  rw [stateOf_setState] at h
  split at h
  · exact absurd h hstate
  · exact h

/-- A web socket that is not alive does not come back when its state is set. -/
theorem alive_setState {p : Page} {socket other : Nat} {state : ReadyState}
    (hstate : state = .closing ∨ state = .closed) (h : Alive (setState p socket state) other) :
    Alive p other ∧ other ≠ socket := by
  unfold Alive at h ⊢
  rw [stateOf_setState] at h
  split at h
  · rcases hstate with rfl | rfl <;> rcases h with h | h <;> cases h
  · rename_i hother
    refine ⟨h, ?_⟩
    rintro rfl
    -- a web socket that was never made counts as closed
    refine hother ⟨rfl, made_of_state ?_⟩
    rcases h with h | h <;> simp [h]

theorem Single.set {p : Page} (h : Single p) (socket : Nat) {state : ReadyState}
    (hstate : state = .closing ∨ state = .closed) : Single (setState p socket state) :=
  fun other ho => h other (alive_setState hstate ho).1

theorem Single.adds {p p' : Page} (h : Single p) (ha : Adds p p') : Single p' := by
  rcases ha with rfl | ⟨post, rfl⟩
  · exact h
  · exact h

/-- After the close of the web socket that the page knows, none is alive. -/
theorem close_none {p : Page} (h : Single p) {ws : Nat} (hws : p.ws = some ws) (q : Page)
    (hq : q.sockets = p.sockets) (socket : Nat) : ¬ Alive (close ws q).page socket := by
  have hsame : ∀ other, stateOf q other = stateOf p other := by
    intro other
    unfold stateOf
    rw [hq]
  have hknown : ∀ other, Alive q other → other = ws := by
    intro other ho
    unfold Alive at ho
    rw [hsame] at ho
    exact (Option.some.inj ((h other ho).symm.trans hws))
  intro hs
  unfold close at hs
  split at hs
  · obtain ⟨ho, hne⟩ := alive_setState (.inl rfl) hs
    exact hne (hknown _ ho)
  · obtain ⟨ho, hne⟩ := alive_setState (.inl rfl) hs
    exact hne (hknown _ ho)
  · rename_i hconnecting hopened
    have ho := hknown _ hs
    subst ho
    rcases hs with hs | hs
    · exact hconnecting hs
    · exact hopened hs

theorem Single.hangUp {p : Page} (h : Single p) : Single (hangUp p).page := by
  unfold chatpage.hangUp
  split
  · rename_i temp hws
    exact fun socket hs => absurd hs (close_none h hws { p with ws := none } rfl socket)
  · exact h

theorem Single.connect {p : Page} (h : Single p) (b : Browser) :
    Single (connect b p).page := by
  -- none is alive before the new one is made
  have hnew : ∀ q : Page, (∀ socket, ¬ Alive q socket) → Single (newSocket b p.server q).page := by
    intro q hq
    unfold newSocket
    split
    · intro socket hs
      by_cases hlast : socket = q.sockets.length
      · rw [hlast]
      · refine absurd ?_ (hq socket)
        unfold Alive stateOf at hs ⊢
        rw [List.getElem?_append] at hs
        split at hs
        · exact hs
        · rename_i hlt
          rw [List.getElem?_eq_none (by simp only [List.length_singleton]; omega)] at hs
          rcases hs with hs | hs <;> cases hs
    · exact fun socket hs => absurd hs (hq socket)
  unfold chatpage.connect andThen
  rcases hws : p.ws with _ | ws
  · refine hnew p fun socket hs => ?_
    have hknown := h socket hs
    rw [hws] at hknown
    cases hknown
  · have hnone : ∀ socket, ¬ Alive (closeOld (some ws) p).page socket := close_none h hws p rfl
    split
    · exact fun socket hs => absurd hs (hnone socket)
    · exact hnew _ hnone

/-- What is sent changes nothing on the page. -/
theorem send_page (data : Bytes) (p : Page) : (send data p).page = p := by
  unfold send
  split
  · rfl
  · split <;> rfl

theorem submit_page (b : Browser) (p : Page) :
    (submit b p).page = p ∨ (submit b p).page = { p with message := [] } := by
  unfold submit andThen
  split
  · exact .inl (send_page _ p)
  · right
    dsimp only
    rw [send_page]

theorem Single.dispatch {p : Page} (h : Single p) (b : Browser) (e : Event) :
    Single (dispatch b e p).page := by
  have hsubmit : Single (submit b p).page := by
    rcases submit_page b p with he | he
    · rw [he]
      exact h
    · rw [he]
      exact h
  cases e with
  | edit_server value => exact h
  | edit_nickname value => exact h
  | edit_message value => exact h
  | click_connect => exact h.connect b
  | click_submit => exact hsubmit
  | keyup keyCode =>
    dsimp only [chatpage.dispatch]
    split
    · exact hsubmit
    · exact h
  | opened socket =>
    dsimp only [chatpage.dispatch]
    split
    · rename_i hconnecting
      unfold onopen
      rw [send_page]
      intro other ho
      unfold Alive at ho
      rw [stateOf_setState] at ho
      split at ho
      · rename_i hsame
        rw [hsame.1]
        exact h socket (.inl hconnecting)
      · exact h other ho
    · exact h
  | message socket data =>
    dsimp only [chatpage.dispatch]
    split
    · rcases onmessage_page b data p with hadds | ⟨q, hadds, he⟩
      · exact h.adds hadds
      · rw [he]
        exact (h.adds hadds).hangUp
    · exact h
  | failed socket =>
    dsimp only [chatpage.dispatch]
    split
    · exact h
    · exact (h.set socket (.inr rfl)).adds (adds_logError b _ _)
  | closed socket => exact h.set socket (.inr rfl)

/-! ## The window -/

/-- The window grows at its top, by one post at most. -/
def Grows (p p' : Page) : Prop := ∃ new, p'.content = new ++ p.content ∧ new.length ≤ 1

theorem Grows.of_content {p p' : Page} (h : p'.content = p.content) : Grows p p' :=
  ⟨[], h, Nat.zero_le 1⟩

theorem Adds.grows {p p' : Page} (h : Adds p p') : Grows p p' := by
  rcases h with rfl | ⟨post, rfl⟩
  · exact .of_content rfl
  · exact ⟨[post], rfl, Nat.le_refl 1⟩

theorem close_content (socket : Nat) (p : Page) : (close socket p).page.content = p.content := by
  unfold close
  split <;> rfl

theorem hangUp_content (p : Page) : (hangUp p).page.content = p.content := by
  unfold hangUp
  split
  · exact close_content _ _
  · rfl

theorem newSocket_content (b : Browser) (server : Bytes) (p : Page) :
    (newSocket b server p).page.content = p.content := by
  unfold newSocket
  split <;> rfl

theorem closeOld_content (ws : Option Nat) (p : Page) :
    (closeOld ws p).page.content = p.content := by
  rcases ws with _ | ws
  · rfl
  · exact close_content ws p

theorem connect_content (b : Browser) (p : Page) : (connect b p).page.content = p.content := by
  unfold connect andThen
  split
  · exact closeOld_content p.ws p
  · dsimp only
    rw [newSocket_content]
    exact closeOld_content p.ws p

theorem submit_content (b : Browser) (p : Page) : (submit b p).page.content = p.content := by
  rcases submit_page b p with h | h
  · rw [h]
  · rw [h]

/-- Only a message and a failure add a post, and each adds one. -/
theorem dispatch_grows (b : Browser) (e : Event) (p : Page) : Grows p (dispatch b e p).page := by
  cases e with
  | edit_server value => exact .of_content rfl
  | edit_nickname value => exact .of_content rfl
  | edit_message value => exact .of_content rfl
  | click_connect => exact .of_content (connect_content b p)
  | click_submit => exact .of_content (submit_content b p)
  | keyup keyCode =>
    dsimp only [dispatch]
    split
    · exact .of_content (submit_content b p)
    · exact .of_content rfl
  | opened socket =>
    dsimp only [dispatch]
    split
    · unfold onopen
      rw [send_page]
      exact .of_content rfl
    · exact .of_content rfl
  | message socket data =>
    dsimp only [dispatch]
    split
    · rcases onmessage_page b data p with h | ⟨q, hadds, he⟩
      · exact h.grows
      · obtain ⟨new, hnew, hlength⟩ := hadds.grows
        exact ⟨new, by rw [he, hangUp_content, hnew], hlength⟩
    · exact .of_content rfl
  | failed socket =>
    dsimp only [dispatch]
    split
    · exact .of_content rfl
    · obtain ⟨new, hnew, hlength⟩ :=
        (adds_logError b .event (setState p socket .closed)).grows
      exact ⟨new, hnew, hlength⟩
  | closed socket => exact .of_content rfl

/-- A page has one web socket at most that is open or may become so, and it is the one that the
page knows. The window grows at the top only, by one post at most for each event. -/
theorem one_connection_at_most (b : Browser) {before after : List Event} {p p' : Page}
    {out out' : List Effect} (hbefore : run (step b) startup before = .ok (p, out))
    (hafter : run (step b) p after = .ok (p', out')) :
    (∀ socket, Alive p socket → p.ws = some socket) ∧
      ∃ new, p'.content = new ++ p.content ∧ new.length ≤ after.length := by
  constructor
  · refine run_invariant (fun p _ => Single p) (fun q _ e q' o hq hs => ?_)
      (h := []) (fun socket hs => ?_) hbefore
    · cases hs
      exact hq.dispatch b e
    · rcases hs with hs | hs <;> cases hs
  · clear hbefore
    induction after generalizing p out' with
    | nil =>
      cases hafter
      exact ⟨[], rfl, Nat.le_refl 0⟩
    | cons e es ih =>
      obtain ⟨q, o, o', hs, hrest, _⟩ := run_cons_ok.mp hafter
      cases hs
      obtain ⟨new, hnew, hlength⟩ := dispatch_grows b e p
      obtain ⟨newer, hnewer, hlength'⟩ := ih hrest
      refine ⟨newer ++ new, ?_, ?_⟩
      · rw [hnewer, hnew, List.append_assoc]
      · rw [List.length_append, List.length_cons]
        omega

/-- A browser that connects anywhere and understands nothing. -/
def deafBrowser : Browser := ⟨fun _ => none, fun _ => [], fun _ => none, fun _ => [], fun _ => true⟩

/-- The user connects twice, and the second web socket fails. -/
theorem one_connection_at_most_sample :
    ∃ p out p' out',
      run (step deafBrowser) startup [.click_connect, .opened 0, .click_connect] = .ok (p, out) ∧
      run (step deafBrowser) p [.closed 0, .message 0 [], .failed 1] = .ok (p', out') ∧
      p.sockets = [.closing, .connecting] ∧ p'.content = [.error (text "[object Event]")] ∧
      (∀ socket, Alive p socket → p.ws = some socket) ∧
      ∃ new, p'.content = new ++ p.content ∧ new.length ≤ 3 := by
  have htest : runEnds (step deafBrowser) startup [.click_connect, .opened 0, .click_connect]
      (fun p _ => decide (p.sockets = [.closing, .connecting]) &&
        runEnds (step deafBrowser) p [.closed 0, .message 0 [], .failed 1]
          (fun p' _ => decide (p'.content = [.error (text "[object Event]")]))) = true := by
    decide +kernel
  obtain ⟨p, out, hbefore, htest⟩ := runEnds_spec htest
  obtain ⟨hsockets, hafter⟩ := Bool.and_eq_true_iff.mp htest
  obtain ⟨p', out', hafter, hcontent⟩ := runEnds_spec hafter
  obtain ⟨hone, hgrows⟩ := one_connection_at_most deafBrowser hbefore hafter
  exact ⟨p, out, p', out', hbefore, hafter, of_decide_eq_true hsockets,
    of_decide_eq_true hcontent, hone, hgrows⟩

/-! ## Web sockets close for good -/

/-- A web socket that is open may close, and one that closes is not open again. -/
def Wanes (p p' : Page) : Prop :=
  p.sockets.length ≤ p'.sockets.length ∧
    ∀ s < p.sockets.length, stateOf p s ≠ .connecting →
      stateOf p' s = stateOf p s ∨ stateOf p' s = .closing ∨ stateOf p' s = .closed

theorem Wanes.of_sockets {p p' : Page} (h : p'.sockets = p.sockets) : Wanes p p' := by
  refine ⟨h ▸ Nat.le_refl _, fun s _ _ => .inl ?_⟩
  unfold stateOf
  rw [h]

theorem Wanes.trans {p q r : Page} (h : Wanes p q) (h' : Wanes q r) : Wanes p r := by
  refine ⟨Nat.le_trans h.1 h'.1, fun s hs hp => ?_⟩
  have hlast := h'.2 s (Nat.lt_of_lt_of_le hs h.1)
  rcases h.2 s hs hp with he | he | he
  · rw [he] at hlast
    exact hlast hp
  · right
    rw [he] at hlast
    rcases hlast ReadyState.noConfusion with hlast | hlast
    · exact .inl hlast
    · exact hlast
  · right
    rw [he] at hlast
    rcases hlast ReadyState.noConfusion with hlast | hlast
    · exact .inr hlast
    · exact hlast

theorem Adds.wanes {p p' : Page} (h : Adds p p') : Wanes p p' := by
  rcases h with rfl | ⟨post, rfl⟩
  · exact .of_sockets rfl
  · exact .of_sockets rfl

/-- The state of one web socket is set, which is closed then or was not open before. -/
theorem wanes_setState {p : Page} {socket : Nat} {state : ReadyState}
    (h : state = .closing ∨ state = .closed ∨ stateOf p socket = .connecting) :
    Wanes p (setState p socket state) := by
  refine ⟨Nat.le_of_eq List.length_set.symm, fun s hs hp => ?_⟩
  rw [stateOf_setState]
  split
  · rename_i hsame
    rcases h with rfl | rfl | h
    · exact .inr (.inl rfl)
    · exact .inr (.inr rfl)
    · rw [hsame.1] at hp
      exact absurd h hp
  · exact .inl rfl

theorem close_wanes (socket : Nat) (p : Page) : Wanes p (close socket p).page := by
  unfold close
  split
  · exact wanes_setState (.inl rfl)
  · exact wanes_setState (.inl rfl)
  · exact .of_sockets rfl

theorem hangUp_wanes (p : Page) : Wanes p (hangUp p).page := by
  have hnone : Wanes p { p with ws := none } := .of_sockets rfl
  unfold hangUp
  split
  · exact hnone.trans (close_wanes _ _)
  · exact .of_sockets rfl

theorem newSocket_wanes (b : Browser) (server : Bytes) (p : Page) :
    Wanes p (newSocket b server p).page := by
  unfold newSocket
  split
  · refine ⟨by simp, fun s hs _ => .inl ?_⟩
    unfold stateOf
    rw [List.getElem?_append_left hs]
  · exact .of_sockets rfl

theorem closeOld_wanes (ws : Option Nat) (p : Page) : Wanes p (closeOld ws p).page := by
  rcases ws with _ | ws
  · exact .of_sockets rfl
  · exact close_wanes ws p

theorem connect_wanes (b : Browser) (p : Page) : Wanes p (connect b p).page := by
  unfold connect andThen
  split
  · exact closeOld_wanes p.ws p
  · exact (closeOld_wanes p.ws p).trans (newSocket_wanes b _ _)

theorem dispatch_wanes (b : Browser) (e : Event) (p : Page) : Wanes p (dispatch b e p).page := by
  have hsubmit : Wanes p (submit b p).page := by
    rcases submit_page b p with h | h
    · rw [h]
      exact .of_sockets rfl
    · rw [h]
      exact .of_sockets rfl
  cases e with
  | edit_server value => exact .of_sockets rfl
  | edit_nickname value => exact .of_sockets rfl
  | edit_message value => exact .of_sockets rfl
  | click_connect => exact connect_wanes b p
  | click_submit => exact hsubmit
  | keyup keyCode =>
    dsimp only [dispatch]
    split
    · exact hsubmit
    · exact .of_sockets rfl
  | opened socket =>
    dsimp only [dispatch]
    split
    · rename_i hconnecting
      unfold onopen
      rw [send_page]
      exact wanes_setState (.inr (.inr hconnecting))
    · exact .of_sockets rfl
  | message socket data =>
    dsimp only [dispatch]
    split
    · rcases onmessage_page b data p with h | ⟨q, hadds, he⟩
      · exact h.wanes
      · rw [he]
        exact hadds.wanes.trans (hangUp_wanes q)
    · exact .of_sockets rfl
  | failed socket =>
    dsimp only [dispatch]
    split
    · exact .of_sockets rfl
    · exact (wanes_setState (.inr (.inl rfl))).trans (adds_logError b _ _).wanes
  | closed socket => exact wanes_setState (.inr (.inl rfl))

/-! ## What a page sends -/

def postOn (socket : Nat) : Effect → Option Bytes
  | .posts s data => if s = socket then some data else none
  | _ => none

/-- What is sent on a web socket, oldest first. -/
def postsOn (socket : Nat) (out : List Effect) : List Bytes := out.filterMap (postOn socket)

@[simp] theorem postsOn_append (socket : Nat) (o o' : List Effect) :
    postsOn socket (o ++ o') = postsOn socket o ++ postsOn socket o' := by
  simp [postsOn]

/-- A script that sends nothing, and opens no web socket. -/
def Quiet (p : Page) (r : Ran) : Prop :=
  (∀ socket, postsOn socket r.out = []) ∧
    ∀ socket, stateOf r.page socket = .opened → stateOf p socket = .opened

theorem quiet_still {p q : Page} (h : q.sockets = p.sockets) (thrown : Bool) :
    Quiet p ⟨q, [], thrown⟩ := by
  refine ⟨fun _ => rfl, fun socket hs => ?_⟩
  unfold stateOf at hs ⊢
  rwa [h] at hs

theorem quiet_withValue {α : Type} {v : Option α} {k : α → Script} {p : Page}
    (h : ∀ a, Quiet p (k a p)) : Quiet p (withValue v k p) := by
  unfold withValue
  split
  · exact h _
  · exact quiet_still rfl _

theorem quiet_andThen {s t : Script} {p : Page} (h : Quiet p (s p))
    (h' : Quiet (s p).page (t (s p).page)) : Quiet p (andThen s t p) := by
  unfold andThen
  split
  · exact h
  · refine ⟨fun socket => ?_, fun socket hs => h.2 socket (h'.2 socket hs)⟩
    rw [postsOn_append, h.1, h'.1, List.append_nil]

theorem quiet_close (ws : Nat) (p q : Page) (h : q.sockets = p.sockets) :
    Quiet p (close ws q) := by
  have hclosing : ∀ socket, stateOf (setState q ws .closing) socket = .opened →
      stateOf p socket = .opened := by
    intro socket hs
    have hopen := opened_of_setState ReadyState.noConfusion hs
    unfold stateOf at hopen ⊢
    rwa [h] at hopen
  unfold close
  split
  · exact ⟨fun _ => rfl, hclosing⟩
  · exact ⟨fun _ => rfl, hclosing⟩
  · exact quiet_still h _

theorem quiet_hangUp (p : Page) : Quiet p (hangUp p) := by
  unfold hangUp
  split
  · exact quiet_close _ p _ rfl
  · exact quiet_still rfl _

theorem quiet_logError (b : Browser) (message : Value) (p : Page) :
    Quiet p (logError b message p) :=
  quiet_withValue fun _ => quiet_still rfl _

theorem quiet_processNotification (b : Browser) (method params : Value) (p : Page) :
    Quiet p (processNotification b method params p) := by
  have hannounce : ∀ what who, Quiet p (announce b what who p) := by
    intro what who
    refine quiet_withValue fun _ => ?_
    split
    · exact quiet_still rfl _
    · split
      · exact quiet_still rfl _
      · exact quiet_withValue fun _ => quiet_still rfl _
  unfold processNotification
  split
  · exact quiet_withValue fun _ =>
      quiet_withValue fun _ => quiet_withValue fun _ => quiet_still rfl _
  · split
    · exact quiet_withValue fun _ => hannounce _ _
    · exact quiet_still rfl _

theorem quiet_processResponse (b : Browser) (response : Value) (p : Page) :
    Quiet p (processResponse b response p) := by
  refine quiet_withValue fun _ => ?_
  split
  · refine quiet_withValue fun _ => ?_
    split
    · exact quiet_withValue fun _ => quiet_andThen (quiet_logError b _ p) (quiet_hangUp _)
    · exact quiet_still rfl _
  · exact quiet_still rfl _

theorem quiet_swallow {s : Script} {p : Page} (h : Quiet p (s p)) : Quiet p (swallow s p) := h

theorem quiet_onmessage (b : Browser) (data : Bytes) (p : Page) :
    Quiet p (onmessage b data p) := by
  refine quiet_swallow (quiet_withValue fun _ => quiet_withValue fun _ => ?_)
  split
  · exact quiet_withValue fun _ => quiet_processNotification b _ _ p
  · refine quiet_withValue fun _ => ?_
    split
    · exact quiet_processResponse b _ p
    · exact quiet_still rfl _

theorem quiet_connect (b : Browser) (p : Page) : Quiet p (connect b p) := by
  have hold : Quiet p (closeOld p.ws p) := by
    rcases p.ws with _ | ws
    · exact quiet_still rfl _
    · exact quiet_close ws p p rfl
  refine quiet_andThen hold ?_
  unfold newSocket
  split
  · refine ⟨fun _ => rfl, fun socket hs => ?_⟩
    unfold stateOf at hs ⊢
    rw [List.getElem?_append] at hs
    split at hs
    · exact hs
    · rcases hlast : socket - (closeOld p.ws p).page.sockets.length with _ | n
      · rw [hlast] at hs
        cases hs
      · rw [hlast] at hs
        cases hs
  · exact quiet_still rfl _

def isSubmit : Event → Bool
  | .click_submit => true
  | .keyup keyCode => keyCode = 13
  | _ => false

/-- The text in the message field, when the web socket is the one of the page and open. -/
def wordsOn (socket : Nat) (p : Page) : List Bytes :=
  if p.ws = some socket ∧ stateOf p socket = .opened then [p.message] else []

/-- What the user submits on a web socket while it is open, oldest first. -/
def submitted (b : Browser) (socket : Nat) : Page → List Event → List Bytes
  | _, [] => []
  | p, e :: es =>
    (if isSubmit e then wordsOn socket p else []) ++ submitted b socket (dispatch b e p).page es

theorem submitted_snoc {b : Browser} {p q : Page} {es : List Event} {out : List Effect}
    (hr : run (step b) p es = .ok (q, out)) (socket : Nat) (e : Event) :
    submitted b socket p (es ++ [e]) =
      submitted b socket p es ++ if isSubmit e then wordsOn socket q else [] := by
  induction es generalizing p out with
  | nil =>
    cases hr
    exact List.append_nil _
  | cons e' es ih =>
    obtain ⟨p1, o, o', hs, hrest, rfl⟩ := run_cons_ok.mp hr
    cases hs
    simp only [List.cons_append, submitted, ih hrest, List.append_assoc]

/-- What is sent on one connection: a name is asked for, and then there are words. -/
def Talk (b : Browser) (named ok : Bytes → Prop) (words posts : List Bytes) : Prop :=
  posts = [] ∧ words = [] ∨ ∃ name : Bytes, named name ∧ (∀ t ∈ words, ok t) ∧
    posts = b.stringify (setNameFrame name) :: words.map fun t => b.stringify (wordsFrame t)

/-- The page, what it sent so far, and the words that its user submitted on each web socket. -/
structure Talks (b : Browser) (named ok : Bytes → Prop) (p : Page) (out : List Effect)
    (words : Nat → List Bytes) : Prop where
  nickname : named p.nickname
  message : ok p.message
  single : Single p
  unborn : ∀ socket, p.sockets.length ≤ socket → postsOn socket out = []
  connecting : ∀ socket, stateOf p socket = .connecting → postsOn socket out = []
  opened : ∀ socket, stateOf p socket = .opened → postsOn socket out ≠ []
  talk : ∀ socket, Talk b named ok (words socket) (postsOn socket out)

/-- A quiet script changes nothing of what is sent. -/
theorem Talks.quiet {b : Browser} {named ok : Bytes → Prop} {p : Page} {out : List Effect}
    {words : Nat → List Bytes} (h : Talks b named ok p out words) {r : Ran}
    (hnickname : named r.page.nickname) (hmessage : ok r.page.message) (hsingle : Single r.page)
    (hwanes : Wanes p r.page) (hquiet : Quiet p r) :
    Talks b named ok r.page (out ++ r.out) words := by
  have hsame : ∀ socket, postsOn socket (out ++ r.out) = postsOn socket out := by
    intro socket
    rw [postsOn_append, hquiet.1, List.append_nil]
  refine ⟨hnickname, hmessage, hsingle, fun socket hs => ?_, fun socket hs => ?_,
    fun socket hs => ?_, fun socket => ?_⟩
  · rw [hsame]
    exact h.unborn socket (Nat.le_trans hwanes.1 hs)
  · rw [hsame]
    by_cases hborn : socket < p.sockets.length
    · by_cases hstate : stateOf p socket = .connecting
      · exact h.connecting socket hstate
      · rcases hwanes.2 socket hborn hstate with he | he | he
        · exact absurd (he.symm.trans hs) hstate
        · rw [he] at hs
          cases hs
        · rw [he] at hs
          cases hs
    · exact h.unborn socket (Nat.le_of_not_lt hborn)
  · rw [hsame]
    exact h.opened socket (hquiet.2 socket hs)
  · rw [hsame]
    exact h.talk socket

/-- Words are sent on the web socket of the page when it is open, and on no other one. -/
theorem postsOn_submit (b : Browser) (p : Page) (socket : Nat) :
    postsOn socket (submit b p).out =
      (wordsOn socket p).map fun t => b.stringify (wordsFrame t) := by
  by_cases hopen : p.ws = some socket ∧ stateOf p socket = .opened
  · obtain ⟨hws, hstate⟩ := hopen
    unfold submit andThen send wordsOn
    simp [hws, hstate, postsOn, postOn]
  · unfold wordsOn
    rw [if_neg hopen, List.map_nil]
    unfold submit andThen send
    rcases hws : p.ws with _ | ws
    · simp [throws, postsOn]
    · rcases hstate : stateOf p ws with _ | _ | _ | _
      · simp [hstate, throws, postsOn]
      · have hother : ws ≠ socket := by
          rintro rfl
          exact hopen ⟨hws, hstate⟩
        simp [hstate, postsOn, postOn, hother]
      · simp [hstate, skip, postsOn]
      · simp [hstate, skip, postsOn]

theorem submit_sockets (b : Browser) (p : Page) : (submit b p).page.sockets = p.sockets := by
  rcases submit_page b p with he | he <;> rw [he]

/-- Words are sent on a web socket that was told a name before. -/
theorem Talks.submits {b : Browser} {named ok : Bytes → Prop} {p : Page} {out : List Effect}
    {words : Nat → List Bytes} (h : Talks b named ok p out words) (hempty : ok []) :
    Talks b named ok (submit b p).page (out ++ (submit b p).out)
      fun socket => words socket ++ wordsOn socket p := by
  have hposts : ∀ socket, postsOn socket (out ++ (submit b p).out) = postsOn socket out ++
      (wordsOn socket p).map fun t => b.stringify (wordsFrame t) := by
    intro socket
    rw [postsOn_append, postsOn_submit]
  have hstate : ∀ socket, stateOf (submit b p).page socket = stateOf p socket := by
    intro socket
    unfold stateOf
    rw [submit_sockets]
  -- an open web socket was told a name, so where nothing was sent there are no words
  have hquiet : ∀ socket, postsOn socket out = [] → wordsOn socket p = [] :=
    fun socket hnil => if_neg fun hopen => h.opened socket hopen.2 hnil
  have hnothing : ∀ socket, postsOn socket out = [] →
      postsOn socket (out ++ (submit b p).out) = [] := by
    intro socket hnil
    rw [hposts, hquiet socket hnil, hnil]
    rfl
  have hfields : named (submit b p).page.nickname ∧ ok (submit b p).page.message ∧
      Single (submit b p).page := by
    rcases submit_page b p with he | he
    · rw [he]
      exact ⟨h.nickname, h.message, h.single⟩
    · rw [he]
      exact ⟨h.nickname, hempty, h.single⟩
  refine ⟨hfields.1, hfields.2.1, hfields.2.2, fun socket hs => ?_, fun socket hs => ?_,
    fun socket hs => ?_, fun socket => ?_⟩
  · rw [submit_sockets] at hs
    exact hnothing socket (h.unborn socket hs)
  · rw [hstate] at hs
    exact hnothing socket (h.connecting socket hs)
  · rw [hstate] at hs
    rw [hposts]
    exact fun hnil => h.opened socket hs (List.append_eq_nil_iff.mp hnil).1
  · rcases h.talk socket with ⟨hnil, hwords⟩ | ⟨name, hname, hwords, he⟩
    · refine .inl ⟨hnothing socket hnil, ?_⟩
      rw [hwords, hquiet socket hnil]
      rfl
    · refine .inr ⟨name, hname, fun t ht => ?_, ?_⟩
      · rcases List.mem_append.mp ht with ht | ht
        · exact hwords t ht
        · unfold wordsOn at ht
          split at ht
          · rw [List.mem_singleton.mp ht]
            exact h.message
          · cases ht
      · rw [hposts, he, List.map_append, List.cons_append]

/-- A name is asked for when the web socket opens. -/
theorem Talks.open {b : Browser} {named ok : Bytes → Prop} {p : Page} {out : List Effect}
    {words : Nat → List Bytes} (h : Talks b named ok p out words) {ws : Nat}
    (hconnecting : stateOf p ws = .connecting) :
    Talks b named ok (setState p ws .opened)
      (out ++ [.posts ws (b.stringify (setNameFrame p.nickname))]) words := by
  have hsingle := h.single.dispatch b (.opened ws)
  dsimp only [dispatch] at hsingle
  rw [if_pos hconnecting, onopen, send_page] at hsingle
  have hposts : ∀ socket, postsOn socket
      (out ++ [.posts ws (b.stringify (setNameFrame p.nickname))]) = postsOn socket out ++
        if ws = socket then [b.stringify (setNameFrame p.nickname)] else [] := by
    intro socket
    rw [postsOn_append]
    by_cases hs : ws = socket <;> simp [postsOn, postOn, hs]
  have hborn : ws < p.sockets.length := made_of_state (by simp [hconnecting])
  have hself : stateOf (setState p ws .opened) ws = .opened := by
    rw [stateOf_setState, if_pos ⟨rfl, hborn⟩]
  have hother : ∀ socket, ws ≠ socket →
      stateOf (setState p ws .opened) socket = stateOf p socket := by
    intro socket hs
    rw [stateOf_setState, if_neg fun hn => hs hn.1.symm]
  refine ⟨h.nickname, h.message, hsingle, fun socket hs => ?_, fun socket hs => ?_,
    fun socket hs => ?_, fun socket => ?_⟩
  · have hs : p.sockets.length ≤ socket := by
      simpa [setState] using hs
    rw [hposts, if_neg (by omega), List.append_nil]
    exact h.unborn socket hs
  · have hne : ws ≠ socket := by
      rintro rfl
      rw [hself] at hs
      cases hs
    rw [hother socket hne] at hs
    rw [hposts, if_neg hne, List.append_nil]
    exact h.connecting socket hs
  · rw [hposts]
    by_cases hne : ws = socket
    · simp [hne]
    · rw [hother socket hne] at hs
      rw [if_neg hne, List.append_nil]
      exact h.opened socket hs
  · rw [hposts]
    by_cases hne : ws = socket
    · subst hne
      have hnone := h.connecting ws hconnecting
      have hwords : words ws = [] := by
        rcases h.talk ws with ⟨_, hwords⟩ | ⟨name, _, _, he⟩
        · exact hwords
        · rw [hnone] at he
          cases he
      rw [if_pos rfl, hnone, hwords]
      exact .inr ⟨p.nickname, h.nickname, fun t ht => (by cases ht), rfl⟩
    · rw [if_neg hne, List.append_nil]
      exact h.talk socket

/-- A text that is typed is one of these. -/
def Typed (named ok : Bytes → Prop) : Event → Prop
  | .edit_nickname value => named value
  | .edit_message value => ok value
  | _ => True

/-- What a script keeps of the text fields. -/
theorem adds_fields {p p' : Page} (h : Adds p p') :
    p'.nickname = p.nickname ∧ p'.message = p.message := by
  rcases h with rfl | ⟨post, rfl⟩ <;> exact ⟨rfl, rfl⟩

theorem close_fields (ws : Nat) (p : Page) :
    (close ws p).page.nickname = p.nickname ∧ (close ws p).page.message = p.message := by
  unfold close
  split <;> exact ⟨rfl, rfl⟩

theorem connect_fields (b : Browser) (p : Page) :
    (connect b p).page.nickname = p.nickname ∧ (connect b p).page.message = p.message := by
  have hold : (closeOld p.ws p).page.nickname = p.nickname ∧
      (closeOld p.ws p).page.message = p.message := by
    rcases p.ws with _ | ws
    · exact ⟨rfl, rfl⟩
    · exact close_fields ws p
  unfold connect andThen newSocket
  split
  · exact hold
  · split <;> exact hold

theorem onmessage_fields (b : Browser) (data : Bytes) (p : Page) :
    (onmessage b data p).page.nickname = p.nickname ∧
      (onmessage b data p).page.message = p.message := by
  rcases onmessage_page b data p with h | ⟨q, hadds, he⟩
  · exact adds_fields h
  · rw [he]
    have hq := adds_fields hadds
    unfold hangUp
    split
    · obtain ⟨hn, hm⟩ := close_fields ‹_› { q with ws := none }
      exact ⟨hn.trans hq.1, hm.trans hq.2⟩
    · exact hq

theorem Talks.dispatch {b : Browser} {named ok : Bytes → Prop} {p : Page} {out : List Effect}
    {words : Nat → List Bytes} (h : Talks b named ok p out words) (hempty : ok []) {e : Event}
    (he : Typed named ok e) : Talks b named ok (dispatch b e p).page (out ++ (dispatch b e p).out)
      fun socket => words socket ++ if isSubmit e then wordsOn socket p else [] := by
  have hsingle := h.single.dispatch b e
  have hwanes := dispatch_wanes b e p
  have hskip : Talks b named ok p (out ++ []) words :=
    h.quiet h.nickname h.message h.single (.of_sockets rfl) (quiet_still rfl false)
  by_cases hsubmit : isSubmit e = true
  · -- the button was clicked, or the enter key did it
    have hsame : chatpage.dispatch b e = submit b := by
      cases e with
      | click_submit => rfl
      | keyup keyCode => exact if_pos (of_decide_eq_true hsubmit)
      | _ => cases hsubmit
    simp only [hsubmit, if_pos, hsame]
    exact h.submits hempty
  simp only [hsubmit, Bool.false_eq_true, if_false, List.append_nil]
  cases e with
  | edit_server value => exact h.quiet h.nickname h.message hsingle hwanes (quiet_still rfl false)
  | edit_nickname value => exact h.quiet he h.message hsingle hwanes (quiet_still rfl false)
  | edit_message value => exact h.quiet h.nickname he hsingle hwanes (quiet_still rfl false)
  | click_connect =>
    obtain ⟨hn, hm⟩ := connect_fields b p
    exact h.quiet (hn ▸ h.nickname) (hm ▸ h.message) hsingle hwanes (quiet_connect b p)
  | click_submit => exact absurd rfl hsubmit
  | keyup keyCode =>
    have hother : keyCode ≠ 13 := fun hk => hsubmit (decide_eq_true hk)
    dsimp only [chatpage.dispatch]
    rw [if_neg hother]
    exact hskip
  | opened socket =>
    dsimp only [chatpage.dispatch]
    split
    · rename_i hconnecting
      have hknown := h.single socket (.inl hconnecting)
      have hborn : socket < p.sockets.length := made_of_state (by simp [hconnecting])
      have hopen : stateOf (setState p socket .opened) socket = .opened := by
        rw [stateOf_setState, if_pos ⟨rfl, hborn⟩]
      have hsent : onopen b (setState p socket .opened) = ⟨setState p socket .opened,
          [.posts socket (b.stringify (setNameFrame p.nickname))], false⟩ := by
        unfold onopen send
        rw [show (setState p socket .opened).ws = some socket from hknown]
        dsimp only
        rw [hopen]
        rfl
      rw [hsent]
      exact h.open hconnecting
    · exact hskip
  | message socket data =>
    dsimp only [chatpage.dispatch] at hsingle hwanes ⊢
    split
    · rw [if_pos ‹_›] at hsingle hwanes
      obtain ⟨hn, hm⟩ := onmessage_fields b data p
      exact h.quiet (hn ▸ h.nickname) (hm ▸ h.message) hsingle hwanes (quiet_onmessage b data p)
    · exact hskip
  | failed socket =>
    dsimp only [chatpage.dispatch] at hsingle hwanes ⊢
    split
    · exact hskip
    · rw [if_neg ‹_›] at hsingle hwanes
      obtain ⟨hn, hm⟩ := adds_fields (adds_logError b .event (setState p socket .closed))
      refine h.quiet (hn ▸ h.nickname) (hm ▸ h.message) hsingle hwanes ?_
      obtain ⟨hposts, hstate⟩ := quiet_logError b .event (setState p socket .closed)
      exact ⟨hposts, fun other ho =>
        opened_of_setState ReadyState.noConfusion (hstate other ho)⟩
  | closed socket =>
    exact h.quiet h.nickname h.message hsingle hwanes
      ⟨fun _ => rfl, fun other ho => opened_of_setState ReadyState.noConfusion ho⟩

/-! ## What is typed on a page -/

def nicknameIn : Event → Option Bytes
  | .edit_nickname value => some value
  | _ => none

def messageIn : Event → Option Bytes
  | .edit_message value => some value
  | _ => none

/-- The texts that were in the field for the nickname, which is empty at first. -/
def nicknames (es : List Event) : List Bytes := startup.nickname :: es.filterMap nicknameIn

/-- The texts that were in the field for the message, which has a first one, and is cleared when a
message was sent. -/
def messages (es : List Event) : List Bytes := startup.message :: [] :: es.filterMap messageIn

theorem typed_of_mem {es : List Event} {e : Event} (he : e ∈ es) :
    Typed (· ∈ nicknames es) (· ∈ messages es) e := by
  cases e with
  | edit_nickname value =>
    exact List.mem_cons_of_mem _ (List.mem_filterMap.mpr ⟨_, he, rfl⟩)
  | edit_message value =>
    exact List.mem_cons_of_mem _ (List.mem_cons_of_mem _ (List.mem_filterMap.mpr ⟨_, he, rfl⟩))
  | _ => trivial

/-- On each connection of a page, what is sent is one request for a name and then all the words
that its user submits there, all of them from the fields of the page. -/
theorem run_talks {b : Browser} {es : List Event} {p : Page} {out : List Effect}
    (hr : run (step b) startup es = .ok (p, out)) (socket : Nat) :
    Talk b (· ∈ nicknames es) (· ∈ messages es) (submitted b socket startup es)
      (postsOn socket out) := by
  have htyped : ∀ e ∈ es, Typed (· ∈ nicknames es) (· ∈ messages es) e := fun _ => typed_of_mem
  have hname : startup.nickname ∈ nicknames es := List.mem_cons_self
  have hfirst : startup.message ∈ messages es := List.mem_cons_self
  have hempty : ([] : Bytes) ∈ messages es := List.mem_cons_of_mem _ List.mem_cons_self
  generalize nicknames es = names at htyped hname ⊢
  generalize messages es = texts at htyped hfirst hempty ⊢
  have hstart : Talks b (· ∈ names) (· ∈ texts) startup [] fun _ => [] := by
    refine ⟨hname, hfirst, fun socket hs => ?_, fun _ _ => rfl, fun _ _ => rfl,
      fun socket hs => ?_, fun _ => .inl ⟨rfl, rfl⟩⟩
    · rcases hs with hs | hs <;> cases hs
    · cases hs
  have hend : Talks b (· ∈ names) (· ∈ texts) p out
      fun socket => submitted b socket startup es := by
    induction es using List.reverseRecOn generalizing p out with
    | nil =>
      cases hr
      exact hstart
    | append_singleton es e ih =>
      obtain ⟨q, o, o', hbefore, hs, rfl⟩ := run_snoc_ok.mp hr
      cases hs
      simp only [submitted_snoc hbefore]
      exact (ih hbefore fun e' he' => htyped e' (by simp [he'])).dispatch hempty
        (htyped e (by simp))
  exact hend.talk socket

end jrpc.chatpage

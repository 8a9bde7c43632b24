-- A page that connects again and again: it listens to its newest web socket only, so its window
-- shows what came from its web sockets, one after the other.
import Jrpc.Windows

open runs
open jrpc.json jrpc.chatserver

namespace jrpc.chatpage

/-! ## What a message posts -/

/-- On whatever page it runs, the script puts this post on top of the public ones. -/
def Puts (s : Script) (post : Option Post) : Prop :=
  ∀ p, publicPosts (s p).page = post.toList ++ publicPosts p

theorem puts_withValue {α : Type} {v : Option α} {k : α → Script} (h : ∀ a, ∃ o, Puts (k a) o) :
    ∃ o, Puts (withValue v k) o := by
  unfold withValue
  split
  · exact h _
  · exact ⟨none, fun _ => rfl⟩

theorem puts_insertBefore (post : Post) : ∃ o, Puts (insertBefore post) o := by
  rcases hpost : isPublic post with _ | _
  · exact ⟨none, fun p => List.filter_cons_of_neg (by rw [hpost]; exact Bool.false_ne_true)⟩
  · exact ⟨some post, fun p => List.filter_cons_of_pos hpost⟩

theorem puts_chat (b : Browser) (nickname message : Value) :
    ∃ o, Puts (chat b nickname message) o :=
  puts_withValue fun _ => puts_withValue fun _ => puts_insertBefore _

theorem puts_announce (b : Browser) (what who : Value) : ∃ o, Puts (announce b what who) o := by
  refine puts_withValue fun _ => ?_
  split
  · exact puts_insertBefore _
  · split
    · exact puts_insertBefore _
    · exact puts_withValue fun _ => puts_insertBefore _

theorem puts_processNotification (b : Browser) (method params : Value) :
    ∃ o, Puts (processNotification b method params) o := by
  unfold processNotification
  split
  · exact puts_withValue fun _ => puts_chat b _ _
  · split
    · exact puts_withValue fun _ => puts_announce b _ _
    · exact ⟨none, fun _ => rfl⟩

theorem puts_onmessage (b : Browser) (data : Bytes) : ∃ o, Puts (onmessage b data) o := by
  -- a throw is swallowed, and the page is the same
  suffices h : ∃ o, Puts (withValue (b.parse data) fun v =>
      withValue ((Value.json v).get "method") fun method =>
      if method.isString then
        withValue ((Value.json v).get "params") fun params => processNotification b method params
      else
        withValue ((Value.json v).get "id") fun id =>
        if id.isNumber then processResponse b (.json v) else skip) o from h
  refine puts_withValue fun _ => puts_withValue fun _ => ?_
  split
  · exact puts_withValue fun _ => puts_processNotification b _ _
  · refine puts_withValue fun _ => ?_
    split
    · exact ⟨none, processResponse_public b _⟩
    · exact ⟨none, fun _ => rfl⟩

/-- The public post that a message makes, on whatever page. -/
def postOf (b : Browser) (data : Bytes) : Option Post :=
  (publicPosts (onmessage b data startup).page).head?

theorem postOf_puts (b : Browser) (data : Bytes) : Puts (onmessage b data) (postOf b data) := by
  obtain ⟨o, ho⟩ := puts_onmessage b data
  have hsame : postOf b data = o := by
    unfold postOf
    rw [ho startup]
    cases o <;> rfl
  rw [hsame]
  exact ho

theorem postOf_line {b : Browser} (htext : ∀ t, b.toText (.string t) = some t) {data : Bytes}
    {l : ChatLine} (hparse : b.parse data = some (lineFrame l)) : postOf b data = shown l := by
  unfold postOf
  rw [onmessage_line htext hparse startup]
  cases shown l <;> rfl

/-! ## The newest web socket -/

/-- No web socket was made, and the page knows the same one or none. -/
def SameSockets (p p' : Page) : Prop :=
  p'.sockets.length = p.sockets.length ∧ (p'.ws = p.ws ∨ p'.ws = none)

theorem SameSockets.rfl {p : Page} : SameSockets p p := ⟨Eq.refl _, .inl (Eq.refl _)⟩

theorem Adds.same {p p' : Page} (h : Adds p p') : SameSockets p p' := by
  rcases h with he | ⟨post, he⟩
  · exact he ▸ .rfl
  · exact he ▸ .rfl

theorem same_setState (p : Page) (socket : Nat) (state : ReadyState) :
    SameSockets p (setState p socket state) := ⟨List.length_set, .inl (Eq.refl _)⟩

theorem close_same (socket : Nat) (p : Page) : SameSockets p (close socket p).page := by
  unfold close
  split
  · exact same_setState p socket _
  · exact same_setState p socket _
  · exact .rfl

theorem hangUp_same (p : Page) : SameSockets p (hangUp p).page := by
  unfold hangUp
  split
  · obtain ⟨hlength, hws⟩ := close_same ‹_› { p with ws := none }
    exact ⟨hlength, .inr (hws.elim id id)⟩
  · exact .rfl

theorem submit_same (b : Browser) (p : Page) : SameSockets p (submit b p).page := by
  rcases submit_page b p with h | h
  · rw [h]
    exact .rfl
  · rw [h]
    exact .rfl

theorem onmessage_same (b : Browser) (data : Bytes) (p : Page) :
    SameSockets p (onmessage b data p).page := by
  rcases onmessage_page b data p with h | ⟨q, hadds, he⟩
  · exact h.same
  · obtain ⟨hlength, hws⟩ := hadds.same
    obtain ⟨hlength', hws'⟩ := hangUp_same q
    rw [he]
    refine ⟨hlength'.trans hlength, ?_⟩
    rcases hws' with hws' | hws'
    · rw [hws']
      exact hws
    · exact .inr hws'

/-- A new web socket is the one that the page knows from then on. -/
theorem connect_sockets (b : Browser) (p : Page) : SameSockets p (connect b p).page ∨
    (connect b p).page.sockets.length = p.sockets.length + 1 ∧
      (connect b p).page.ws = some p.sockets.length := by
  have hold : SameSockets p (closeOld p.ws p).page := by
    rcases p.ws with _ | ws
    · exact .rfl
    · exact close_same ws p
  unfold connect andThen newSocket
  split
  · exact .inl hold
  · split
    · right
      dsimp only
      rw [List.length_append, hold.1]
      exact ⟨rfl, rfl⟩
    · exact .inl hold

theorem dispatch_sockets (b : Browser) (e : Event) (p : Page) :
    SameSockets p (dispatch b e p).page ∨
      (dispatch b e p).page.sockets.length = p.sockets.length + 1 ∧
        (dispatch b e p).page.ws = some p.sockets.length := by
  cases e with
  | edit_server value => exact .inl .rfl
  | edit_nickname value => exact .inl .rfl
  | edit_message value => exact .inl .rfl
  | click_connect => exact connect_sockets b p
  | click_submit => exact .inl (submit_same b p)
  | keyup keyCode =>
    dsimp only [dispatch]
    split
    · exact .inl (submit_same b p)
    · exact .inl .rfl
  | opened socket =>
    dsimp only [dispatch]
    split
    · unfold onopen
      rw [send_page]
      exact .inl (same_setState p socket _)
    · exact .inl .rfl
  | message socket data =>
    dsimp only [dispatch]
    split
    · exact .inl (onmessage_same b data p)
    · exact .inl .rfl
  | failed socket =>
    dsimp only [dispatch]
    split
    · exact .inl .rfl
    · obtain ⟨hlength, hws⟩ := same_setState p socket .closed
      obtain ⟨hlength', hws'⟩ := (adds_logError b .event (setState p socket .closed)).same
      exact .inl ⟨hlength'.trans hlength, hws'⟩
  | closed socket => exact .inl (same_setState p socket _)

/-- The page knows its newest web socket, or none. -/
def Newest (p : Page) : Prop := ∀ socket, p.ws = some socket → socket + 1 = p.sockets.length

theorem Newest.dispatch {p : Page} (h : Newest p) (b : Browser) (e : Event) :
    Newest (dispatch b e p).page := by
  intro socket hws
  rcases dispatch_sockets b e p with ⟨hlength, hsame | hnone⟩ | ⟨hlength, hnew⟩
  · rw [hlength]
    exact h socket (hsame ▸ hws)
  · rw [hnone] at hws
    cases hws
  · rw [hnew] at hws
    cases hws
    exact hlength.symm

/-! ## One web socket after the other -/

theorem flatMap_range_le {α : Type} {f : Nat → List α} {m n : Nat} (hmn : m ≤ n)
    (h : ∀ i, m ≤ i → f i = []) : (List.range n).flatMap f = (List.range m).flatMap f := by
  induction hmn with
  | refl => rfl
  | @step n hmn ih =>
    rw [List.range_succ, List.flatMap_append, ih, List.flatMap_singleton, h n hmn, List.append_nil]

/-- What came from the first of the web sockets, one web socket after the other. -/
def receivedBelow (socket : Nat) (es : List Event) : List Bytes :=
  (List.range socket).flatMap fun s => receivedOn s es

/-- What a page is after these events, if each message came from an open web socket. -/
structure Follows (b : Browser) (p : Page) (es : List Event) : Prop where
  single : Single p
  newest : Newest p
  unborn : ∀ socket, p.sockets.length ≤ socket → receivedOn socket es = []
  window : publicPosts p = ((receivedBelow p.sockets.length es).filterMap (postOf b)).reverse

theorem receivedOn_append (socket : Nat) (es fs : List Event) :
    receivedOn socket (es ++ fs) = receivedOn socket es ++ receivedOn socket fs :=
  List.filterMap_append

theorem receivedOn_message (socket s : Nat) (data : Bytes) :
    receivedOn socket [.message s data] = if s = socket then [data] else [] := by
  unfold receivedOn
  by_cases hs : s = socket <;> simp [hs]

theorem receivedOn_other {e : Event} (he : ∀ socket data, e ≠ .message socket data)
    (socket : Nat) : receivedOn socket [e] = [] := by
  cases e with
  | message s data => exact absurd rfl (he s data)
  | _ => rfl

theorem Follows.start (b : Browser) : Follows b startup [] where
  single socket hs := by
    rcases hs with hs | hs <;> cases hs
  newest socket hws := by
    cases hws
  unborn _ _ := rfl
  window := rfl

/-- An open web socket is the newest one. -/
theorem Follows.open {b : Browser} {p : Page} {es : List Event} (h : Follows b p es)
    {socket : Nat} (hopen : stateOf p socket = .opened) : socket + 1 = p.sockets.length :=
  h.newest socket (h.single socket (.inr hopen))

theorem Follows.event {b : Browser} {p : Page} {es : List Event} (h : Follows b p es) {e : Event}
    (he : ∀ socket data, e = .message socket data → stateOf p socket = .opened) :
    Follows b (dispatch b e p).page (es ++ [e]) := by
  have hlength := (dispatch_wanes b e p).1
  refine ⟨h.single.dispatch b e, h.newest.dispatch b e, fun socket hs => ?_, ?_⟩
  · rw [receivedOn_append, h.unborn socket (Nat.le_trans hlength hs), List.nil_append]
    by_cases hmessage : ∃ s data, e = .message s data
    · obtain ⟨s, data, rfl⟩ := hmessage
      have hnewest := h.open (he s data rfl)
      rw [receivedOn_message, if_neg (by omega)]
    · exact receivedOn_other (fun s data hsame => hmessage ⟨s, data, hsame⟩) socket
  · by_cases hmessage : ∃ s data, e = .message s data
    · obtain ⟨s, data, rfl⟩ := hmessage
      have hopen := he s data rfl
      have hnewest := h.open hopen
      -- it is the last message of all
      have hlast : receivedBelow (dispatch b (.message s data) p).page.sockets.length
          (es ++ [.message s data]) = receivedBelow p.sockets.length es ++ [data] := by
        unfold receivedBelow
        rw [flatMap_range_le hlength, ← hnewest, List.range_succ, List.flatMap_append,
          List.flatMap_append, List.flatMap_singleton, List.flatMap_singleton, receivedOn_append,
          receivedOn_message, if_pos rfl, List.append_assoc]
        · congr 1
          refine List.flatMap_congr fun t ht => ?_
          have hlt := List.mem_range.mp ht
          rw [receivedOn_append, receivedOn_message, if_neg (by omega), List.append_nil]
        · intro t ht
          rw [receivedOn_append, h.unborn t ht, receivedOn_message, if_neg (by omega)]
          rfl
      have hput : publicPosts (dispatch b (.message s data) p).page =
          (postOf b data).toList ++ publicPosts p := by
        dsimp only [dispatch]
        rw [if_pos hopen]
        exact postOf_puts b data p
      rw [hput, hlast, h.window, List.filterMap_append, List.reverse_append]
      rcases hpost : postOf b data with _ | post
      · rw [List.filterMap_cons_none hpost]
        rfl
      · rw [List.filterMap_cons_some hpost]
        rfl
    · have hother : ∀ s data, e ≠ .message s data := fun s data hsame => hmessage ⟨s, data, hsame⟩
      have hsame : ∀ t, receivedOn t (es ++ [e]) = receivedOn t es := by
        intro t
        rw [receivedOn_append, receivedOn_other hother, List.append_nil]
      have hall : receivedBelow (dispatch b e p).page.sockets.length (es ++ [e]) =
          receivedBelow p.sockets.length es := by
        unfold receivedBelow
        rw [flatMap_range_le hlength]
        · exact List.flatMap_congr fun t _ => hsame t
        · intro t ht
          rw [hsame, h.unborn t ht]
      rw [dispatch_public b hother, hall, h.window]

end jrpc.chatpage

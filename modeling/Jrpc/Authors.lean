-- Nothing that the windows show was made up, and nobody speaks for another page: what is said was
-- submitted on the web socket of the speaker, under a name that was typed on the same page.
import Jrpc.Arrivals

open heap runs unordered room
open jrpc.json jrpc.message jrpc.queue jrpc.connection jrpc.protocol jrpc.service jrpc.chatserver
open jrpc.chatpage

namespace jrpc.network

variable {n : Setting} {s s' : Net} {trace happened : List Happened}

/-! ## Who sends -/

/-- Only pages send to the server, and each message arrives in one piece. -/
def FromPages : Move → Prop
  | .arrives_in_part _ _ _ => False
  | .elsewhere cb => ∀ data, cb.reason ≠ .receive data
  | _ => True

theorem FromPages.in_one_piece {m : Move} (h : FromPages m) : InOnePiece m := by
  cases m with
  | arrives_in_part page socket count => exact h
  | _ => trivial

/-- What arrived came on the connection of a page. -/
def Known (n : Setting) (trace : List Happened) : Prop :=
  ∀ cb ∈ callbacksIn trace, ∀ data, cb.reason = .receive data → ∀ c, cb.user = some c →
    ∃ page socket, c = n.conn_of page socket

theorem Known.callback (h : Known n trace) {cb : Callback} {out : List connection.Event}
    (hcb : ∀ data, cb.reason = .receive data →
      ∃ page socket, cb.user = some (n.conn_of page socket)) :
    Known n (trace ++ [.callback cb out]) := by
  intro d hd data hr c hu
  rw [callbacksIn_append] at hd
  rcases List.mem_append.mp hd with hd | hd
  · exact h d hd data hr c hu
  · obtain rfl := List.mem_singleton.mp hd
    obtain ⟨page, socket, hpage⟩ := hcb data hr
    exact ⟨page, socket, Option.some.inj (hu.symm.trans hpage)⟩

theorem Known.event (h : Known n trace) (page : Nat) (e : chatpage.Event) (out : List Effect) :
    Known n (trace ++ [.event page e out]) := by
  intro cb hcb
  rw [callbacksIn_append, show callbacksIn [.event page e out] = [] from rfl,
    List.append_nil] at hcb
  exact h cb hcb

theorem Known.step (h : Known n trace) {m : Move} (hm : FromPages m)
    (hs : network.step n s m = .ok (s', happened)) : Known n (trace ++ happened) := by
  cases step_next hs with
  | event he heq =>
    cases heq
    exact h.event _ _ _
  | shows hdown hopen heq =>
    cases heq
    exact h.event _ _ _
  | arrives hup hc =>
    obtain ⟨server, out, _, rfl, rfl⟩ := callback_ok hc
    exact h.callback fun data _ => ⟨_, _, rfl⟩
  | arrives_in_part hc => exact hm.elim
  | writes hserver => exact h.callback fun data hr => (by cases hr)
  | callback hc hreceive hmade hwrites =>
    obtain ⟨server, out, _, rfl, rfl⟩ := callback_ok hc
    refine h.callback fun data hr => ?_
    obtain ⟨rfl, _⟩ := hreceive data hr
    exact absurd hr (hm data)

theorem known {oom fails : Nat → Bool} {ms : List Move} (hms : ∀ m ∈ ms, FromPages m)
    (hr : run (network.step n) (network.start oom fails) ms = .ok (s, trace)) : Known n trace := by
  have hstart : Known n [] := fun cb hcb => by cases hcb
  exact run_invariant_of (fun _ trace => Known n trace) (fun _ _ _ _ _ h hm hs => h.step hm hs)
    hstart hms hr

/-! ## What was typed -/

/-- What arrives from a page is a request for a name or words that were submitted on this web
socket. -/
theorem Connected.posts_typed {oom fails : Nat → Bool} (h : Connected n oom fails s trace)
    (harrives : Arrives n s trace) {page socket : Nat} {data : Bytes}
    (hdata : data ∈ arrivedFrom (n.conn_of page socket) trace) :
    (∃ t ∈ nicknamesOn page trace, data = n.browser.stringify (setNameFrame t)) ∨
      ∃ t ∈ submittedOn n trace page socket, t ∈ messagesOn page trace ∧
        data = n.browser.stringify (wordsFrame t) := by
  have hmem : data ∈ postsOn socket (effectsAt page trace) := by
    rw [← harrives page socket]
    exact List.mem_append_left _ hdata
  rcases h.talks page socket with ⟨hnil, _⟩ | ⟨name, hname, hwords, hposts⟩
  · rw [hnil] at hmem
    cases hmem
  · rw [hposts] at hmem
    rcases List.mem_cons.mp hmem with rfl | hmem
    · exact .inl ⟨name, hname, rfl⟩
    · obtain ⟨t, ht, rfl⟩ := List.mem_map.mp hmem
      exact .inr ⟨t, ht, hwords t ht, rfl⟩

/-- A name that is asked for was typed on the page of the connection, and words that are said were
submitted on its web socket. -/
theorem Connected.act_typed {oom fails : Nat → Bool} (h : Connected n oom fails s trace)
    (harrives : Arrives n s trace) (hknown : Known n trace) (hread : ServerReads n trace)
    {a : ChatAct} (ha : a ∈ actsIn n trace) {c : Conn} (hby : ByChatter c a) :
    ∃ page socket, c = n.conn_of page socket ∧
      ((∃ t ∈ nicknamesOn page trace, a = .rename c t 42) ∨
        ∃ t ∈ submittedOn n trace page socket, a = .say c t) := by
  obtain ⟨i, hi, hact⟩ := List.mem_filterMap.mp ha
  obtain ⟨cb, hcb, rfl⟩ := List.mem_map.mp hi
  obtain ⟨wsi, reason, user, has_protocol⟩ := cb
  -- it was received on the connection
  have hreceived : ∃ data, reason = .receive data ∧ user = some c := by
    unfold actOf at hact
    split at hact
    · cases hact
      cases hby
    · cases hact
      cases hby
    · rename_i data d _ hsame
      cases hsame
      obtain ⟨call, _, hkind⟩ := Option.bind_eq_some_iff.mp hact
      refine ⟨data, rfl, ?_⟩
      have hkind := callAct_kind hkind
      cases hby <;> cases hkind <;> rfl
    · cases hact
  obtain ⟨data, rfl, rfl⟩ := hreceived
  obtain ⟨page, socket, rfl⟩ := hknown _ hcb data rfl c rfl
  have harrived : data ∈ arrivedFrom (n.conn_of page socket) trace :=
    List.mem_filterMap.mpr ⟨_, hcb, if_pos rfl⟩
  have hclean : ∀ {t : Bytes} {b : ChatAct}, whenClean n.env.platform.lib t b = some a → a = b := by
    intro t b hb
    exact (Option.some.inj (Option.ite_none_right_eq_some.mp hb).2).symm
  refine ⟨page, socket, rfl, ?_⟩
  rcases h.posts_typed harrives harrived with ⟨t, ht, rfl⟩ | ⟨t, ht, htyped, rfl⟩
  · have hname := act_of_setName ((hread page).1 t ht) wsi (n.conn_of page socket)
    exact .inl ⟨t, ht, hclean (hname.symm.trans hact)⟩
  · have hwords := act_of_words ((hread page).2 t htyped) wsi (n.conn_of page socket)
    exact .inr ⟨t, ht, hclean (hwords.symm.trans hact)⟩

/-- A name that was chosen was in the field of the page of its connection, or it is empty. -/
theorem Connected.name_typed {oom fails : Nat → Bool} (h : Connected n oom fails s trace)
    (harrives : Arrives n s trace) (hknown : Known n trace) (hread : ServerReads n trace)
    {c : Conn} {name : Bytes} (hname : Room.Chosen (actsIn n trace) c name) :
    name = [] ∨ ∃ page socket, c = n.conn_of page socket ∧ name ∈ nicknamesOn page trace := by
  rcases hname with rfl | ⟨ticket, hact⟩
  · exact .inl rfl
  · obtain ⟨page, socket, rfl, ⟨t, ht, he⟩ | ⟨t, _, he⟩⟩ :=
      h.act_typed harrives hknown hread hact (.rename _ _)
    · cases he
      exact .inr ⟨page, socket, rfl, ht⟩
    · cases he

/-! ## Who speaks -/

/-- The log, where each line has the connection whose act it tells. -/
noncomputable def signedLogOf (n : Setting) (trace : List Happened) : List (Conn × ChatLine) :=
  Room.signedLog .empty (actsIn n trace)

/-- The line tells what was typed on the page of this connection. Whoever leaves without a name has
typed nothing, and may be no page. -/
def TypedLine (n : Setting) (trace : List Happened) (c : Conn) : ChatLine → Prop
  | .message who words => ∃ page socket, c = n.conn_of page socket ∧
      who ∈ nicknamesOn page trace ∧ words ∈ submittedOn n trace page socket
  | .arrived who => ∃ page socket, c = n.conn_of page socket ∧ who ∈ nicknamesOn page trace
  | .gone who => who = [] ∨
      ∃ page socket, c = n.conn_of page socket ∧ who ∈ nicknamesOn page trace
  | _ => True

/-- Nobody speaks for another page. -/
theorem Connected.line_typed {oom fails : Nat → Bool} (h : Connected n oom fails s trace)
    (harrives : Arrives n s trace) (hknown : Known n trace) (hread : ServerReads n trace)
    {x : Conn × ChatLine} (hx : x ∈ signedLogOf n trace) : TypedLine n trace x.1 x.2 := by
  obtain ⟨c, l⟩ := x
  have hbacked := Room.log_is_backed (actsIn n trace) _ hx
  cases l with
  | arrived who =>
    obtain ⟨ticket, hact⟩ := hbacked
    obtain ⟨page, socket, hc, ⟨t, ht, he⟩ | ⟨t, _, he⟩⟩ :=
      h.act_typed harrives hknown hread hact (.rename _ _)
    · cases he
      exact ⟨page, socket, hc, ht⟩
    · cases he
  | gone who => exact h.name_typed harrives hknown hread hbacked.1
  | message who words =>
    obtain ⟨hwho, hsay⟩ := hbacked
    obtain ⟨page, socket, hc, ⟨t, _, he⟩ | ⟨t, ht, he⟩⟩ :=
      h.act_typed harrives hknown hread hsay (.say _)
    · cases he
    · cases he
      refine ⟨page, socket, hc, ?_, ht⟩
      -- the one who speaks took the name on the same page
      rcases h.name_typed harrives hknown hread hwho with rfl | ⟨page', _, hsame, hname⟩
      · exact List.mem_cons_self
      · obtain ⟨rfl, _⟩ := n.conn_inj (hc.symm.trans hsame)
        exact hname
  | _ => trivial

/-- When no allocation fails, only pages send to the server, and each message arrives in one piece,
each line that is shown in public in any window tells what was typed on the page whose connection
did it: the words were submitted on the web socket of this connection, and the name was in the field
for the nickname on the same page. -/
theorem what_is_shown_was_typed (n : Setting) (hlib : ReadsUtf8 n.env.platform.lib)
    {oom fails : Nat → Bool} (hoom : ∀ i, oom i = false) (hfails : ∀ i, fails i = false)
    {ms : List Move} (hms : ∀ m ∈ ms, FromPages m) {s : Net} {trace : List Happened}
    (hr : run (step n) (start oom fails) ms = .ok (s, trace))
    (htext : ∀ t, n.browser.toText (.string t) = some t) (hread : ReadBack n trace)
    (hserver : ServerReads n trace) :
    (signedLogOf n trace).map (·.2) = logOf n trace ∧
      (∀ x ∈ signedLogOf n trace, TypedLine n trace x.1 x.2) ∧
      ∀ page, ∃ heard : List (Conn × ChatLine), heard.Sublist (signedLogOf n trace) ∧
        publicPosts (s.pages page) = ((heard.map (·.2)).filterMap shown).reverse := by
  have h := connected hr
  have harrives := arrives (fun m hm => (hms m hm).in_one_piece) hr
  have hknown := known hms hr
  have hlines : (signedLogOf n trace).map (·.2) = logOf n trace := Room.signedLog_lines _ _
  refine ⟨hlines, fun x hx => h.line_typed harrives hknown hserver hx, fun page => ?_⟩
  have hordered := h.ordered page (s.pages page).sockets.length
  rw [Room.upTo_of_never (h.unborn page _ (Nat.le_refl _)),
    show Room.log .empty (actsIn n trace) = logOf n trace from rfl, ← hlines] at hordered
  obtain ⟨heard, hsub, heq⟩ := List.sublist_map_iff.mp hordered
  refine ⟨heard, hsub, ?_⟩
  rw [h.window hlib hoom hfails hread htext page, heq]

theorem what_is_shown_was_typed_sample :
    ∃ s trace, run (step typingNet) (start never never) speaksAgain = .ok (s, trace) ∧
      publicPosts (s.pages 0) = [.announcement (text "ann has entered"),
        .announcement (text "ann left the chat"), .message (text "ann") (text "hi"),
        .announcement (text "ann has entered")] ∧
      ∃ heard : List (Conn × ChatLine), heard.Sublist (signedLogOf typingNet trace) ∧
        publicPosts (s.pages 0) = ((heard.map (·.2)).filterMap shown).reverse ∧
        ∀ x ∈ heard, TypedLine typingNet trace x.1 x.2 := by
  have htest : runEnds (step typingNet) (start never never) speaksAgain (fun s trace =>
      decide (publicPosts (s.pages 0) = [.announcement (text "ann has entered"),
        .announcement (text "ann left the chat"), .message (text "ann") (text "hi"),
        .announcement (text "ann has entered")] ∧ trace.filterMap typedIn ⊆ fieldTexts) &&
      ((serverOut trace).filterMap frameIn).all (fun v =>
        ((typingNet.env.platform.lib.dumps v).bind typingNet.browser.parse).any v.same)) =
      true := by
    decide +kernel
  obtain ⟨s, trace, hrun, htest⟩ := runEnds_spec htest
  obtain ⟨hstate, hread⟩ := Bool.and_eq_true_iff.mp htest
  obtain ⟨hwindow, htexts⟩ := of_decide_eq_true hstate
  have hlib : ReadsUtf8 typingNet.env.platform.lib := sampleLib_reads (by decide +kernel)
  have hms : ∀ m ∈ speaksAgain, FromPages m := by
    simp [speaksAgain, comesBack, FromPages]
  obtain ⟨_, htyped, hwindows⟩ := what_is_shown_was_typed typingNet hlib (fun _ => rfl)
    (fun _ => rfl) hms hrun (fun _ => rfl) (readBack_of_test hread) (serverReads_of_test htexts)
  obtain ⟨heard, hsub, hposts⟩ := hwindows 0
  exact ⟨s, trace, hrun, hwindow, heard, hsub, hposts, fun x hx => htyped x (hsub.subset hx)⟩

end jrpc.network

-- What the users of the chat see: what the windows of all pages show is one log.
import Jrpc.PageRuns
import Jrpc.Conversations

open heap runs unordered room
open jrpc.json jrpc.message jrpc.queue jrpc.connection jrpc.protocol jrpc.service jrpc.chatserver

namespace jrpc.chatpage

/-! ## What a page is told -/

def isPublic : Post → Bool
  | .error _ => false
  | _ => true

def publicPosts (p : Page) : List Post := p.content.filter isPublic

/-- The post of a line that is said in public. -/
def shown : ChatLine → Option Post
  | .arrived who => some (.announcement (who ++ text " has entered"))
  | .gone who => some (.announcement (who ++ text " left the chat"))
  | .message who words => some (.message who words)
  | _ => none

theorem withValue_public {α : Type} {v : Option α} {k : α → Script} {p : Page}
    (h : ∀ a, publicPosts (k a p).page = publicPosts p) :
    publicPosts (withValue v k p).page = publicPosts p := by
  unfold withValue
  split
  · exact h _
  · rfl

theorem logError_public (b : Browser) (message : Value) (p : Page) :
    publicPosts (logError b message p).page = publicPosts p :=
  withValue_public fun _ => rfl

theorem hangUp_public (p : Page) : publicPosts (hangUp p).page = publicPosts p := by
  unfold publicPosts
  rw [hangUp_content]

theorem processResponse_public (b : Browser) (response : Value) (p : Page) :
    publicPosts (processResponse b response p).page = publicPosts p := by
  have herror : ∀ message, publicPosts (andThen (logError b message) hangUp p).page =
      publicPosts p := by
    intro message
    unfold andThen
    split
    · exact logError_public b _ p
    · rw [hangUp_public, logError_public]
  refine withValue_public fun _ => ?_
  split
  · refine withValue_public fun _ => ?_
    split
    · exact withValue_public fun _ => herror _
    · rfl
  · rfl

/-- A page that is told a line shows it at its top, if it is a public one. -/
theorem onmessage_line {b : Browser} (htext : ∀ t, b.toText (.string t) = some t) {data : Bytes}
    {l : ChatLine} (hparse : b.parse data = some (lineFrame l)) (p : Page) :
    publicPosts (onmessage b data p).page = (shown l).toList ++ publicPosts p := by
  have hcontent : ∀ t, textContent b (.json (.string t)) = some t := htext
  have hembedded : ∀ t, embedded b (.json (.string t)) = some t := htext
  unfold onmessage swallow
  rw [hparse]
  dsimp only [withValue]
  cases l with
  | arrived who =>
    show publicPosts
      (announce b (.json (.string (text "arrived"))) (.json (.string who)) p).page = _
    unfold announce
    rw [hembedded]
    rfl
  | gone who =>
    show publicPosts (announce b (.json (.string (text "gone"))) (.json (.string who)) p).page = _
    unfold announce
    rw [hembedded]
    rfl
  | message who words =>
    show publicPosts (chat b (.json (.string who)) (.json (.string words)) p).page = _
    unfold chat
    rw [hcontent, hcontent]
    rfl
  | granted name id =>
    show publicPosts (processResponse b (.json (lineFrame (.granted name id))) p).page = _
    exact processResponse_public b _ p
  | refused id =>
    show publicPosts (processResponse b (.json (lineFrame (.refused id))) p).page = _
    exact processResponse_public b _ p
  | rejected reason id =>
    show publicPosts (processResponse b (.json (lineFrame (.rejected reason id))) p).page = _
    exact processResponse_public b _ p

/-! ## A window follows its connection -/

/-- Only messages change what is shown of the public lines. -/
theorem dispatch_public (b : Browser) {e : Event} (he : ∀ socket data, e ≠ .message socket data)
    (p : Page) : publicPosts (dispatch b e p).page = publicPosts p := by
  cases e with
  | edit_server value => rfl
  | edit_nickname value => rfl
  | edit_message value => rfl
  | click_connect => exact congrArg (List.filter isPublic) (connect_content b p)
  | click_submit => exact congrArg (List.filter isPublic) (submit_content b p)
  | keyup keyCode =>
    dsimp only [dispatch]
    split
    · exact congrArg (List.filter isPublic) (submit_content b p)
    · rfl
  | opened socket =>
    dsimp only [dispatch]
    split
    · unfold onopen
      rw [send_page]
      rfl
    · rfl
  | message socket data => exact absurd rfl (he socket data)
  | failed socket =>
    dsimp only [dispatch]
    split
    · rfl
    · exact logError_public b _ _
  | closed socket => rfl

/-- What comes from a web socket. -/
def receivedOn (socket : Nat) (es : List Event) : List Bytes :=
  es.filterMap fun
    | .message s data => if s = socket then some data else none
    | _ => none

/-- All messages come from this web socket. -/
def OnlyFrom (socket : Nat) (es : List Event) : Prop :=
  ∀ s data, .message s data ∈ es → s = socket

theorem OnlyFrom.tail {socket : Nat} {e : Event} {es : List Event}
    (h : OnlyFrom socket (e :: es)) : OnlyFrom socket es :=
  fun s data hmem => h s data (List.mem_cons_of_mem e hmem)

/-- When its web socket is closed, a page shows no more public lines. -/
theorem window_stays {b : Browser} {socket : Nat} {es : List Event} {p p' : Page}
    {out : List Effect} (hmade : socket < p.sockets.length)
    (hgone : stateOf p socket = .closing ∨ stateOf p socket = .closed)
    (honly : OnlyFrom socket es) (hr : run (step b) p es = .ok (p', out)) :
    publicPosts p' = publicPosts p ∧ stateOf p' socket ≠ .opened := by
  have hclosed : ∀ q : Page, stateOf q socket = .closing ∨ stateOf q socket = .closed →
      stateOf q socket ≠ .opened ∧ stateOf q socket ≠ .connecting := by
    intro q hq
    rcases hq with h | h <;> rw [h] <;> exact ⟨ReadyState.noConfusion, ReadyState.noConfusion⟩
  induction es generalizing p out with
  | nil =>
    cases hr
    exact ⟨rfl, (hclosed _ hgone).1⟩
  | cons e es ih =>
    obtain ⟨q, o, o', hs, hrest, _⟩ := run_cons_ok.mp hr
    cases hs
    obtain ⟨hlength, hstate⟩ := dispatch_wanes b e p
    have hgone' : stateOf (dispatch b e p).page socket = .closing ∨
        stateOf (dispatch b e p).page socket = .closed := by
      rcases hstate socket hmade (hclosed p hgone).2 with h | h
      · rw [h]
        exact hgone
      · exact h
    obtain ⟨hsame, hend⟩ := ih (Nat.lt_of_lt_of_le hmade hlength) hgone' honly.tail hrest
    refine ⟨hsame.trans ?_, hend⟩
    by_cases he : ∃ s data, e = .message s data
    · obtain ⟨s, data, rfl⟩ := he
      have hsocket := honly s data List.mem_cons_self
      subst hsocket
      dsimp only [dispatch]
      rw [if_neg (hclosed p hgone).1]
      rfl
    · exact dispatch_public b (fun s data h => he ⟨s, data, h⟩) p

/-- What a page is told on an open web socket are lines. It shows the public ones among the first
of them, the newest one first, and among all of them when the web socket is still open. -/
theorem window_follows {b : Browser} (htext : ∀ t, b.toText (.string t) = some t) {socket : Nat}
    {es : List Event} {p p' : Page} {out : List Effect} {lines : List ChatLine}
    (hmade : socket < p.sockets.length) (hnot : stateOf p socket ≠ .connecting)
    (honly : OnlyFrom socket es)
    (hlines : List.Forall₂ (fun l data => b.parse data = some (lineFrame l)) lines
      (receivedOn socket es))
    (hr : run (step b) p es = .ok (p', out)) :
    ∃ n, publicPosts p' = ((lines.take n).filterMap shown).reverse ++ publicPosts p ∧
      (stateOf p' socket = .opened → lines.take n = lines) := by
  induction es generalizing p out lines with
  | nil =>
    cases hr
    cases hlines
    exact ⟨0, rfl, fun _ => rfl⟩
  | cons e es ih =>
    by_cases hopen : stateOf p socket = .opened
    · obtain ⟨q, o, o', hs, hrest, _⟩ := run_cons_ok.mp hr
      cases hs
      obtain ⟨hlength, hstate⟩ := dispatch_wanes b e p
      have hnot' : stateOf (dispatch b e p).page socket ≠ .connecting := by
        rcases hstate socket hmade hnot with h | h | h
        · rw [h]
          exact hnot
        · rw [h]
          exact ReadyState.noConfusion
        · rw [h]
          exact ReadyState.noConfusion
      have hmade' := Nat.lt_of_lt_of_le hmade hlength
      by_cases he : ∃ s data, e = .message s data
      · obtain ⟨s, data, rfl⟩ := he
        have hsame := honly s data List.mem_cons_self
        subst hsame
        have hreceived : receivedOn s (.message s data :: es) = data :: receivedOn s es :=
          List.filterMap_cons_some (if_pos rfl)
        rw [hreceived] at hlines
        cases hlines with
        | @cons l _ ls _ hparse hrestlines =>
          obtain ⟨n, hn, hall⟩ := ih hmade' hnot' honly.tail hrestlines hrest
          have hshown : publicPosts (dispatch b (.message s data) p).page =
              (shown l).toList ++ publicPosts p := by
            dsimp only [dispatch]
            rw [if_pos hopen]
            exact onmessage_line htext hparse p
          refine ⟨n + 1, ?_, fun hp => ?_⟩
          · rw [hn, hshown, List.take_succ_cons]
            rcases hl : shown l with _ | post
            · rw [List.filterMap_cons_none hl]
              rfl
            · rw [List.filterMap_cons_some hl, List.reverse_cons, List.append_assoc]
              rfl
          · rw [List.take_succ_cons, hall hp]
      · have hnone : ∀ s data, e ≠ .message s data := fun s data h => he ⟨s, data, h⟩
        have hreceived : receivedOn socket (e :: es) = receivedOn socket es := by
          cases e with
          | message s data => exact absurd rfl (hnone s data)
          | _ => rfl
        rw [hreceived] at hlines
        obtain ⟨n, hn, hall⟩ := ih hmade' hnot' honly.tail hlines hrest
        refine ⟨n, ?_, hall⟩
        rw [hn, dispatch_public b hnone p]
    · have hgone : stateOf p socket = .closing ∨ stateOf p socket = .closed := by
        rcases hstate : stateOf p socket with _ | _ | _ | _
        · exact absurd hstate hnot
        · exact absurd hstate hopen
        · exact .inl rfl
        · exact .inr rfl
      obtain ⟨hsame, hend⟩ := window_stays hmade hgone honly hr
      exact ⟨0, hsame, fun hp => absurd hp hend⟩

/-! ## One log in all windows -/

theorem shown_isPost (l : ChatLine) : (shown l).isSome = Room.isPost l := by
  cases l <;> rfl

theorem filterMap_shown (lines : List ChatLine) :
    lines.filterMap shown = (lines.filter Room.isPost).filterMap shown := by
  rw [List.filterMap_filter]
  apply List.filterMap_congr
  intro l _
  rw [← shown_isPost]
  rcases shown l with _ | post <;> rfl

theorem sentTo_sendsTo (c : Conn) (out : List connection.Event) :
    sentTo c out = sentTo c (sendsTo c out) := by
  unfold sentTo sendsTo
  rw [List.filterMap_filter]
  apply List.filterMap_congr
  intro e _
  cases e with
  | send d object message =>
    by_cases hd : d = c <;> simp [toConn, sentBy, hd]
  | _ => rfl

/-- The messages for a connection are parsed as the frames of its lines. -/
theorem sent_lines {full : Prop} {lib : JsonLib} {b : Browser} {c : Conn} {lines : List ChatLine}
    {out : List connection.Event} (h : Hears full c lines out) (hfull : full)
    (hcompact : Compact lib out)
    (hparse : ∀ v ∈ framesTo c out, (lib.dumps v).bind b.parse = some v) :
    List.Forall₂ (fun l m => b.parse m.2 = some (lineFrame l)) lines (sentTo c out) := by
  have hmem : ∀ e ∈ sendsTo c out, e ∈ out := fun e he => (List.mem_filter.mp he).1
  rw [sentTo_sendsTo]
  unfold Hears at h
  generalize sendsTo c out = events at h hmem
  induction h with
  | nil => exact .nil
  | @cons l e lines events hx _ ih =>
    obtain ⟨object, message, rfl, hx⟩ := hx
    obtain ⟨rfl, hmessage⟩ := hx hfull
    obtain ⟨⟨a, bytes⟩, rfl⟩ := Option.isSome_iff_exists.mp hmessage
    have hsent := hmem _ List.mem_cons_self
    have hframe : lineFrame l ∈ framesTo c out :=
      List.mem_filterMap.mpr ⟨_, hsent, if_pos rfl⟩
    have hbytes := hcompact _ _ _ _ hsent
    obtain ⟨data, hdata, hback⟩ := Option.bind_eq_some_iff.mp (hparse _ hframe)
    have hone : sentBy c (.send c (some (lineFrame l)) (some (a, bytes))) = some (a, bytes) :=
      if_pos rfl
    unfold sentTo at ih ⊢
    rw [List.filterMap_cons_some hone]
    refine .cons ?_ (ih fun e he => hmem e (List.mem_cons_of_mem _ he))
    rw [hbytes, Option.bind_some, hdata]
    exact hback

/-- The notifications among what a page received. -/
def told (b : Browser) (received : List Bytes) : List Json :=
  (received.filterMap b.parse).filter isNotice

theorem told_eq {b : Browser} {lines : List ChatLine} {received : List Bytes}
    (h : List.Forall₂ (fun l data => b.parse data = some (lineFrame l)) lines received) :
    told b received = (lines.filter Room.isPost).map lineFrame := by
  have hparsed : received.filterMap b.parse = lines.map lineFrame := by
    induction h with
    | nil => rfl
    | cons hparse _ ih => rw [List.filterMap_cons_some hparse, ih, List.map_cons]
  unfold told
  rw [hparsed, List.filter_map, show isNotice ∘ lineFrame = Room.isPost from
    funext isNotice_lineFrame]

/-- The windows of all pages show one log. A page that received some of what the server wrote to
its connection shows a part of the log, the newest line first: the notifications that it received
while its web socket was open, and all that it received when it still is. -/
theorem windows_show_one_log (hashing : Hashing Conn Chatter) (env : Env Statics)
    (hlib : ReadsUtf8 env.platform.lib) {oom fails : Nat → Bool} (hoom : ∀ n, oom n = false)
    (hfails : ∀ n, fails n = false) {cbs : List Callback} {w : World Statics}
    {hist : List connection.Event} (hr : run (service.step (chatServer hashing env))
      (chatStart oom fails) (cbs.map .callback) = .ok (w, hist))
    (b : Browser) (htext : ∀ t, b.toText (.string t) = some t) :
    ∃ log : List ChatLine, Room.Orderly [] log ∧
      ∀ c, w.phase c = .established →
        (∀ v ∈ framesTo c hist, (env.platform.lib.dumps v).bind b.parse = some v) →
        ∀ socket p es p' out, stateOf p socket = .opened →
        OnlyFrom socket es →
        receivedOn socket es <+: (writtenOn (env.wsi_of c) hist).map (·.2) →
        run (step b) p es = .ok (p', out) →
        ∃ part, part <:+: log ∧
          publicPosts p' = (part.filterMap shown).reverse ++ publicPosts p ∧
          part.map lineFrame <+: told b (receivedOn socket es) ∧
          (stateOf p' socket = .opened → part.map lineFrame = told b (receivedOn socket es)) := by
  have hstart := start_refines (chatServer hashing env) .empty oom ⟨.empty, fails⟩
  obtain ⟨acts', b', hx⟩ := run_explains hstart hr
  have h := start_chats hr
  have hfull := full_start hlib hoom hfails
  refine ⟨Room.log .empty (acts env.platform.lib (cbs.map .callback)), ?_, ?_⟩
  · exact Room.only_who_is_there_speaks Room.apart_empty (fun k name hk => (by cases hk)) _
  intro c hc hparse socket p es p' out hopen honly hreceived hpage
  -- what was written is the first part of what was sent
  have hwritten : writtenOn (env.wsi_of c) hist <+: sentTo c hist := by
    have hprefix := outbox.delivered_prefix (k := c) rfl hx.replay
    rw [hx.delivered, hx.posted] at hprefix
    exact hprefix
  have hsent := sent_lines (h.hears c) hfull hx.compact hparse
  generalize hall : Room.hears c (roomOf (chatStart oom fails).user.chatters)
    (acts (chatServer hashing env).platform.lib (cbs.map .callback)) = lines at hsent
  obtain ⟨rest, hrest⟩ := hreceived.trans (hwritten.map (·.2))
  have hlines : List.Forall₂ (fun l data => b.parse data = some (lineFrame l)) lines
      (receivedOn socket es ++ rest) := by
    rw [hrest]
    exact List.forall₂_map_right_iff.mpr hsent
  obtain ⟨got, later, hgot, _, rfl⟩ :
      ∃ got later, List.Forall₂ (fun l data => b.parse data = some (lineFrame l)) got
          (receivedOn socket es) ∧
        List.Forall₂ (fun l data => b.parse data = some (lineFrame l)) later rest ∧
        lines = got ++ later := by
    refine ⟨lines.take (receivedOn socket es).length, lines.drop (receivedOn socket es).length,
      ?_, ?_, (List.take_append_drop _ _).symm⟩
    · exact List.forall₂_take_append _ _ _ hlines
    · exact List.forall₂_drop_append _ _ _ hlines
  have hmade : socket < p.sockets.length := made_of_state (by simp [hopen])
  obtain ⟨n, hposts, hend⟩ := window_follows htext hmade
    (by rw [hopen]; exact ReadyState.noConfusion) honly hgot hpage
  have hpart : (got.take n).filter Room.isPost <+: got.filter Room.isPost :=
    (List.take_prefix n got).filter _
  refine ⟨(got.take n).filter Room.isPost, ?_, ?_, ?_, fun hp => ?_⟩
  · -- a first part of the end of the log
    have hstays : .leave c ∉ acts env.platform.lib (cbs.map .callback) := by
      apply leave_not_in_acts
      intro wsi q
      exact has_not_left ⟨_, hstart⟩ hr hc
    have hsuffix := Room.members_hear_a_suffix (r := .empty) hstays
    rw [show Room.hears c .empty (acts env.platform.lib (cbs.map .callback)) = got ++ later
        from hall,
      List.filter_append] at hsuffix
    exact (hpart.trans (List.prefix_append _ _)).isInfix.trans hsuffix.isInfix
  · rw [hposts, filterMap_shown]
  · rw [told_eq hgot]
    exact hpart.map lineFrame
  · rw [told_eq hgot, hend hp]

/-- A browser that knows the compact text of a few values. -/
def sampleBrowser (known : List Json) : Browser where
  parse data := known.find? fun v => print v == some data
  stringify v := (print v).getD []
  toText
    | .string t => some t
    | _ => none
  codePoints t := t.map fun c => [c]
  isUrl _ := true

/-- What the first chatter of the conversation hears. -/
def smallTalkLines : List ChatLine :=
  [.granted (text "ann") 42, .arrived (text "ann"), .arrived (text "bob"),
    .message (text "ann") (text "hi")]

/-- The page of the first chatter, with an open web socket. -/
def openPage : Page := { startup with ws := some 0, sockets := [.opened] }

/-- All messages are written, and the page receives them. -/
theorem windows_show_one_log_sample :
    ∃ w hist p' out, ∃ log part : List ChatLine,
      run (service.step (chatServer newestFirst chatEnv)) (chatStart never never)
        ((smallTalk ++ List.replicate 4 (gets 7 (.server_writeable 9))).map .callback) =
          .ok (w, hist) ∧
      run (step (sampleBrowser (smallTalkLines.map lineFrame))) openPage
        ((writtenOn 7 hist).map fun m => .message 0 m.2) = .ok (p', out) ∧
      Room.Orderly [] log ∧ part <:+: log ∧ publicPosts p' = (part.filterMap shown).reverse ∧
      p'.content = [.message (text "ann") (text "hi"), .announcement (text "bob has entered"),
        .announcement (text "ann has entered")] := by
  have htest : runEnds (service.step (chatServer newestFirst chatEnv)) (chatStart never never)
      ((smallTalk ++ List.replicate 4 (gets 7 (.server_writeable 9))).map .callback)
      (fun w hist => w.phase 7 = .established &&
        (framesTo 7 hist).all (fun v => ((chatEnv.platform.lib.dumps v).bind
          (sampleBrowser (smallTalkLines.map lineFrame)).parse).any v.same) &&
        runEnds (step (sampleBrowser (smallTalkLines.map lineFrame))) openPage
          ((writtenOn 7 hist).map fun m => .message 0 m.2)
          (fun p' _ => decide (p'.content = [.message (text "ann") (text "hi"),
            .announcement (text "bob has entered"), .announcement (text "ann has entered")]))) =
      true := by decide +kernel
  obtain ⟨w, hist, hrun, htest⟩ := runEnds_spec htest
  simp only [Bool.and_eq_true, decide_eq_true_eq] at htest
  obtain ⟨⟨hc, hsame⟩, hpage⟩ := htest
  have hparse : ∀ v ∈ framesTo 7 hist, (chatEnv.platform.lib.dumps v).bind
      (sampleBrowser (smallTalkLines.map lineFrame)).parse = some v := by
    intro v hv
    obtain ⟨u, hu, huv⟩ := (Option.any_eq_true _ _).mp (List.all_eq_true.mp hsame v hv)
    rw [hu, (Json.same_iff v u).mp huv]
  obtain ⟨p', out, hpage, hcontent⟩ := runEnds_spec hpage
  obtain ⟨log, horderly, hwindows⟩ := windows_show_one_log newestFirst chatEnv reads_sample
    (fun _ => rfl) (fun _ => rfl) hrun (sampleBrowser (smallTalkLines.map lineFrame)) (fun _ => rfl)
  have honly : OnlyFrom 0 ((writtenOn 7 hist).map fun m => .message 0 m.2) := by
    intro s data hmem
    obtain ⟨m, _, he⟩ := List.mem_map.mp hmem
    cases he
    rfl
  have hreceived : receivedOn 0 ((writtenOn 7 hist).map fun m => .message 0 m.2) =
      (writtenOn 7 hist).map (·.2) := by
    unfold receivedOn
    rw [List.filterMap_map, ← List.filterMap_eq_map]
    rfl
  obtain ⟨part, hpart, hposts, _⟩ := hwindows 7 hc hparse 0 openPage _ p' out rfl honly
    (hreceived ▸ List.prefix_rfl) hpage
  exact ⟨w, hist, p', out, log, part, hrun, hpage, horderly, hpart,
    hposts.trans (List.append_nil _), of_decide_eq_true hcontent⟩

/-! ## A page in the room -/

/-- What the server receives when the data comes on a connection. -/
def receives (wsi : Wsi) (c : Conn) (data : Bytes) : Input Statics :=
  .callback ⟨wsi, .receive data, some c, true⟩

/-- A text that the JSON library of the server takes. -/
def clean (lib : JsonLib) (t : Bytes) : Bool := lib.utf8 t && !t.contains 0

/-- The server reads back what the page makes of a clean text, and nothing of any other one. -/
def Reads (b : Browser) (lib : JsonLib) (frameOf : Bytes → Json) (t : Bytes) : Prop :=
  lib.loads (b.stringify (frameOf t)) = if clean lib t then some (frameOf t) else none

/-- A message with a text that is not clean is malformed, and does nothing. -/
def whenClean (lib : JsonLib) (t : Bytes) (a : ChatAct) : Option ChatAct :=
  if clean lib t then some a else none

/-- A clean text goes through C strings as it is. -/
theorem cString_clean {lib : JsonLib} {t : Bytes} (h : clean lib t = true) : cString t = t := by
  have hnul : t.contains 0 = false := by
    simpa using (Bool.and_eq_true_iff.mp h).2
  unfold cString
  rw [List.takeWhile_eq_self_iff]
  intro x hx
  rw [decide_eq_true_eq]
  rintro rfl
  rw [List.contains_iff_mem.mpr hx] at hnul
  cases hnul

theorem actOf_nothing {lib : JsonLib} {data : Bytes} (h : lib.loads data = none) (wsi : Wsi)
    (c : Conn) : actOf lib (receives wsi c data) = none := by
  show (callIn lib data).bind (callAct c) = none
  rw [callIn, h]
  rfl

theorem act_of_setName {b : Browser} {lib : JsonLib} {name : Bytes}
    (h : Reads b lib setNameFrame name) (wsi : Wsi) (c : Conn) :
    actOf lib (receives wsi c (b.stringify (setNameFrame name))) =
      whenClean lib name (.rename c name 42) := by
  unfold Reads at h
  unfold whenClean
  by_cases hclean : clean lib name = true
  · rw [if_pos hclean] at h ⊢
    have hcall : callIn lib (b.stringify (setNameFrame name)) =
        some ⟨text "set_name", .array [.string name], some 42⟩ := by
      unfold callIn
      rw [h]
      rfl
    show (callIn lib _).bind (callAct c) = _
    rw [hcall]
    show some (Act.rename c (cString name) 42) = _
    rw [cString_clean hclean]
  · rw [if_neg hclean] at h ⊢
    exact actOf_nothing h wsi c

theorem act_of_words {b : Browser} {lib : JsonLib} {words : Bytes}
    (h : Reads b lib wordsFrame words) (wsi : Wsi) (c : Conn) :
    actOf lib (receives wsi c (b.stringify (wordsFrame words))) =
      whenClean lib words (.say c words) := by
  unfold Reads at h
  unfold whenClean
  by_cases hclean : clean lib words = true
  · rw [if_pos hclean] at h ⊢
    have hcall : callIn lib (b.stringify (wordsFrame words)) =
        some ⟨text "chat", .array [.string words], none⟩ := by
      unfold callIn
      rw [h]
      rfl
    show (callIn lib _).bind (callAct c) = _
    rw [hcall]
    show some (Act.say c (cString words)) = _
    rw [cString_clean hclean]
  · rw [if_neg hclean] at h ⊢
    exact actOf_nothing h wsi c

/-- What a page sends on one of its web sockets is nothing, or one request for a name, with the id
that the page waits for, and then all the words that its user submits there. On whatever connection
it comes, each of these messages is this one act in the room if its text is clean, and nothing
otherwise. The name was in the field for the nickname, and the words in the field for the
message. -/
theorem a_page_is_a_chatter (b : Browser) (lib : JsonLib) {es : List Event} {p : Page}
    {out : List Effect} (hr : run (step b) startup es = .ok (p, out))
    (hnames : ∀ t ∈ nicknames es, Reads b lib setNameFrame t)
    (hwords : ∀ t ∈ messages es, Reads b lib wordsFrame t) (socket : Nat) (wsi : Wsi) (c : Conn) :
    postsOn socket out = [] ∧ submitted b socket startup es = [] ∨
      ∃ name ∈ nicknames es, (∀ t ∈ submitted b socket startup es, t ∈ messages es) ∧
        postsOn socket out = b.stringify (setNameFrame name) ::
          (submitted b socket startup es).map (fun t => b.stringify (wordsFrame t)) ∧
        (postsOn socket out).map (fun data => actOf lib (receives wsi c data)) =
          whenClean lib name (.rename c name 42) ::
            (submitted b socket startup es).map fun t => whenClean lib t (.say c t) := by
  rcases run_talks hr socket with hnothing | ⟨name, hn, hw, hposts⟩
  · exact .inl hnothing
  · refine .inr ⟨name, hn, hw, hposts, ?_⟩
    rw [hposts, List.map_cons, act_of_setName (hnames name hn), List.map_map]
    exact congrArg _ (List.map_congr_left fun t ht => act_of_words (hwords t (hw t ht)) wsi c)

/-- The texts of the example, the last of which has a NUL in it. -/
def fieldTexts : List Bytes := [[], startup.message, text "ann", text "hi", [104, 0, 105]]

/-- It knows all frames with a clean text. -/
def carefulLib : JsonLib :=
  sampleLib ((fieldTexts.filter fun t => clean (sampleLib []) t).flatMap fun t =>
    [setNameFrame t, wordsFrame t])

instance : DecidableEq Json := fun v u => decidable_of_iff _ (Json.same_iff v u)

instance (b : Browser) (lib : JsonLib) (frameOf : Bytes → Json) (t : Bytes) :
    Decidable (Reads b lib frameOf t) :=
  inferInstanceAs (Decidable (_ = _))

theorem reads_carefully : ∀ t ∈ fieldTexts,
    Reads (sampleBrowser []) carefulLib setNameFrame t ∧
      Reads (sampleBrowser []) carefulLib wordsFrame t := by
  decide +kernel

/-- A user takes a name and speaks twice. The second message is malformed for the server. -/
theorem a_page_is_a_chatter_sample :
    ∃ p out, run (step (sampleBrowser [])) startup [.edit_nickname (text "ann"), .click_connect,
        .opened 0, .keyup 13, .edit_message [104, 0, 105], .click_submit] = .ok (p, out) ∧
      ∃ name : Bytes, (postsOn 0 out).length = 3 ∧
        (postsOn 0 out).map (fun data => actOf carefulLib (receives 7 7 data)) =
          [whenClean carefulLib name (.rename 7 name 42),
            some (.say 7 (text "Hello, I'm new here")), none] := by
  have htest : runEnds (step (sampleBrowser [])) startup [.edit_nickname (text "ann"),
      .click_connect, .opened 0, .keyup 13, .edit_message [104, 0, 105], .click_submit]
      (fun _ out => (postsOn 0 out).length = 3) = true := by
    decide +kernel
  obtain ⟨p, out, hrun, hlength⟩ := runEnds_spec htest
  have hlength := of_decide_eq_true hlength
  rcases a_page_is_a_chatter (sampleBrowser []) carefulLib hrun
      (fun t ht => (reads_carefully t (by revert t; decide +kernel)).1)
      (fun t ht => (reads_carefully t (by revert t; decide +kernel)).2) 0 7 7 with
    ⟨hnil, _⟩ | ⟨name, _, _, _, hacts⟩
  · rw [hnil] at hlength
    cases hlength
  · exact ⟨p, out, hrun, name, hlength, hacts⟩

end jrpc.chatpage

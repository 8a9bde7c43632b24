-- What the pages send comes to the server. When each message comes in one piece, all that a user
-- submits on an open web socket is said once, in order, and shown to all who are there.
import Jrpc.OneLog

open heap runs unordered room
open jrpc.json jrpc.message jrpc.queue jrpc.connection jrpc.protocol jrpc.service jrpc.chatserver
open jrpc.chatpage

namespace jrpc.network

/-! ## What arrives at the server -/

def receiveFor (c : Conn) (cb : Callback) : Option Bytes :=
  match cb.reason with
  | .receive data => if cb.user = some c then some data else none
  | _ => none

/-- What arrived at the server on a connection. -/
def arrivedFrom (c : Conn) (trace : List Happened) : List Bytes :=
  (callbacksIn trace).filterMap (receiveFor c)

def InOnePiece : Move → Prop
  | .arrives_in_part _ _ _ => False
  | _ => True

/-- What arrived and what is on its way is what the page sent. -/
def Arrives (n : Setting) (s : Net) (trace : List Happened) : Prop :=
  ∀ page socket, arrivedFrom (n.conn_of page socket) trace ++ s.up page socket =
    postsOn socket (effectsAt page trace)

variable {n : Setting} {s s' : Net} {trace happened : List Happened}

theorem arrivedFrom_append (c : Conn) (trace more : List Happened) :
    arrivedFrom c (trace ++ more) = arrivedFrom c trace ++ arrivedFrom c more := by
  unfold arrivedFrom
  rw [callbacksIn_append, List.filterMap_append]

theorem Arrives.event (h : Arrives n s trace) {s1 : Net} {p : Nat} {e : chatpage.Event}
    (hup : s1.up = s.up) :
    Arrives n (network.event n s1 p e).1 (trace ++ (network.event n s1 p e).2) := by
  intro page socket
  generalize hran : dispatch n.browser e (s1.pages p) = ran
  have hone : network.event n s1 p e = ({ s1 with
      pages := Function.update s1.pages p ran.page
      up := fun q t => s1.up q t ++ if q = p then postsOn t ran.out else [] },
    [.event p e ran.out]) := by
    rw [← hran]
    rfl
  have hsent := h page socket
  rw [hone, arrivedFrom_append, effectsAt_append, effectsAt_event, postsOn_append, ← hsent, hup]
  show arrivedFrom _ trace ++ [] ++ (s.up page socket ++ _) = _
  rw [List.append_nil, List.append_assoc]
  by_cases hp : page = p
  · rw [if_pos hp, if_pos hp.symm]
  · rw [if_neg hp, if_neg (Ne.symm hp)]
    rfl

/-- A callback that brings nothing from a page. -/
theorem Arrives.callback (h : Arrives n s trace) {cb : Callback}
    (hc : network.callback n s cb = .ok (s', happened))
    (hnot : ∀ data, cb.reason = .receive data → ∀ page socket,
      cb.user ≠ some (n.conn_of page socket)) : Arrives n s' (trace ++ happened) := by
  obtain ⟨server, out, _, rfl, rfl⟩ := callback_ok hc
  intro page socket
  have hnone : receiveFor (n.conn_of page socket) cb = none := by
    unfold receiveFor
    split
    · exact if_neg (hnot _ ‹_› page socket)
    · rfl
  have hsilent : arrivedFrom (n.conn_of page socket) [.callback cb out] = [] :=
    List.filterMap_cons_none hnone
  rw [arrivedFrom_append, hsilent, List.append_nil, effectsAt_append, postsOn_append]
  exact (h page socket).trans (List.append_nil _).symm

/-- The first of the messages that are on their way arrives. -/
theorem Arrives.receive (h : Arrives n s trace) {page socket : Nat} {data : Bytes}
    {rest : List Bytes} (hup : s.up page socket = data :: rest)
    (hc : network.callback n { s with up := setAt s.up page socket rest }
      (n.session page socket (.receive data)) = .ok (s', happened)) :
    Arrives n s' (trace ++ happened) := by
  obtain ⟨server, out, _, rfl, rfl⟩ := callback_ok hc
  intro p t
  have hsent := h p t
  rw [arrivedFrom_append, effectsAt_append, postsOn_append]
  show arrivedFrom _ trace ++ arrivedFrom _ _ ++ setAt s.up page socket rest p t =
    postsOn t (effectsAt p trace) ++ []
  rw [List.append_nil, ← hsent, List.append_assoc]
  by_cases hsame : p = page ∧ t = socket
  · obtain ⟨rfl, rfl⟩ := hsame
    have hone : arrivedFrom (n.conn_of p t)
        [.callback (n.session p t (.receive data)) out] = [data] :=
      List.filterMap_cons_some (if_pos rfl)
    rw [hone, hup]
    exact congrArg _ (congrArg _ (if_pos ⟨rfl, rfl⟩))
  · have hother : arrivedFrom (n.conn_of p t)
        [.callback (n.session page socket (.receive data)) out] = [] := by
      refine List.filterMap_cons_none (if_neg fun he => ?_)
      obtain ⟨rfl, rfl⟩ := n.conn_inj (Option.some.inj he)
      exact hsame ⟨rfl, rfl⟩
    rw [hother]
    exact congrArg _ (if_neg hsame)

theorem carries_up (s : Net) (page socket : Nat) (result : Int32) (data : List Bytes) :
    (s.carries page socket result data).up = s.up := by
  unfold Net.carries
  split
  · rfl
  · split <;> rfl

theorem Arrives.step (h : Arrives n s trace) {m : Move} (hm : InOnePiece m)
    (hs : network.step n s m = .ok (s', happened)) : Arrives n s' (trace ++ happened) := by
  cases step_next hs with
  | @event _ p e _ _ he heq =>
    have hstep := h.event (p := p) (e := e) rfl
    rwa [heq] at hstep
  | @shows p t data rest hdown hopen _ _ heq =>
    have hstep : Arrives n _ (trace ++ _) := h.event (p := p) (e := .message t data)
      (show ({ s with down := setAt s.down p t rest } : Net).up = s.up from rfl)
    rwa [heq] at hstep
  | arrives hup hc => exact h.receive hup hc
  | arrives_in_part hc => exact hm.elim
  | writes hserver =>
    have hstep := h.callback (callback_of_step hserver) fun _ hr => (by cases hr)
    intro p t
    rw [carries_up]
    exact hstep p t
  | callback hc hreceive hmade hwrites => exact h.callback hc fun data hr => (hreceive data hr).2

theorem arrives {oom fails : Nat → Bool} {ms : List Move} (hms : ∀ m ∈ ms, InOnePiece m)
    (hr : run (network.step n) (network.start oom fails) ms = .ok (s, trace)) :
    Arrives n s trace := by
  have hstart : Arrives n (network.start oom fails) [] := fun _ _ => rfl
  exact run_invariant_of (fun s trace => Arrives n s trace)
    (fun _ _ _ _ _ h hm hs => h.step hm hs) hstart hms hr

/-! ## What was typed -/

def nicknamesOn (page : Nat) (trace : List Happened) : List Bytes := nicknames (eventsAt page trace)

def messagesOn (page : Nat) (trace : List Happened) : List Bytes := messages (eventsAt page trace)

/-- The server reads back what the pages make of the texts in their fields, if these are clean. -/
def ServerReads (n : Setting) (trace : List Happened) : Prop :=
  ∀ page, (∀ t ∈ nicknamesOn page trace, Reads n.browser n.env.platform.lib setNameFrame t) ∧
    ∀ t ∈ messagesOn page trace, Reads n.browser n.env.platform.lib wordsFrame t

/-- What the user of a page submitted on a web socket, oldest first. -/
def submittedOn (n : Setting) (trace : List Happened) (page socket : Nat) : List Bytes :=
  submitted n.browser socket startup (eventsAt page trace)

/-- What a page sends is one request for a name and then what its user submits, all of it from its
fields. -/
theorem Connected.talks {oom fails : Nat → Bool} (h : Connected n oom fails s trace)
    (page socket : Nat) : Talk n.browser (· ∈ nicknamesOn page trace) (· ∈ messagesOn page trace)
      (submittedOn n trace page socket) (postsOn socket (effectsAt page trace)) :=
  run_talks (h.ran page) socket

/-! ## What is said -/

/-- The words of one speaker. -/
def wordsBy (c : Conn) (said : Conn × Bytes) : Option Bytes :=
  if said.1 = c then some said.2 else none

def saidBy (c : Conn) (said : List (Conn × Bytes)) : List Bytes := said.filterMap (wordsBy c)

/-- The words in a message that the server receives on a connection. -/
def wordsOf (lib : JsonLib) (c : Conn) (data : Bytes) : Option Bytes :=
  (((callIn lib data).bind (callAct c)).bind Room.speech).map (·.2)

/-- All that is said, and by whom. -/
def saidIn (n : Setting) (trace : List Happened) : List (Conn × Bytes) :=
  (actsIn n trace).filterMap Room.speech

theorem speaker_of_data {lib : JsonLib} {c k : Conn} {data words : Bytes}
    (h : ((callIn lib data).bind (callAct c)).bind Room.speech = some (k, words)) : k = c := by
  obtain ⟨a, ha, hspeech⟩ := Option.bind_eq_some_iff.mp h
  obtain ⟨call, _, hact⟩ := Option.bind_eq_some_iff.mp ha
  cases callAct_kind hact <;> cases hspeech
  rfl

/-- Somebody speaks by a message that comes on its connection, and by nothing else. -/
theorem words_of_callback (lib : JsonLib) (c : Conn) (cb : Callback) :
    ((actOf lib (.callback cb)).bind Room.speech).bind (wordsBy c) =
      (receiveFor c cb).bind (wordsOf lib c) := by
  obtain ⟨wsi, reason, user, has_protocol⟩ := cb
  rcases user with _ | d
  · cases reason <;> rfl
  · cases reason with
    | receive data =>
      show (((callIn lib data).bind (callAct d)).bind Room.speech).bind (wordsBy c) =
        (if some d = some c then some data else none).bind (wordsOf lib c)
      by_cases hd : d = c
      · subst hd
        rw [if_pos rfl, Option.bind_some, wordsOf]
        rcases hsaid : ((callIn lib data).bind (callAct d)).bind Room.speech with _ | ⟨k, words⟩
        · rfl
        · exact if_pos (speaker_of_data hsaid)
      · rw [if_neg fun he => hd (Option.some.inj he), Option.bind_none]
        rcases hsaid : ((callIn lib data).bind (callAct d)).bind Room.speech with _ | ⟨k, words⟩
        · rfl
        · exact if_neg (speaker_of_data hsaid ▸ hd)
    | _ => rfl

/-- What is said by a connection are the words in what arrived on it. -/
theorem saidBy_arrived (n : Setting) (trace : List Happened) (c : Conn) :
    saidBy c (saidIn n trace) =
      (arrivedFrom c trace).filterMap (wordsOf n.env.platform.lib c) := by
  unfold saidBy saidIn actsIn acts arrivedFrom
  rw [List.filterMap_filterMap, List.filterMap_filterMap, List.filterMap_map,
    List.filterMap_filterMap]
  exact List.filterMap_congr fun cb _ =>
    (Option.bind_assoc _ _ _).symm.trans (words_of_callback n.env.platform.lib c cb)

/-- The words in all that a page sends are the clean ones of the texts that its user submitted. -/
theorem words_of_talk {n : Setting} {named ok : Bytes → Prop}
    (hname : ∀ t, named t → Reads n.browser n.env.platform.lib setNameFrame t)
    (hwords : ∀ t, ok t → Reads n.browser n.env.platform.lib wordsFrame t)
    {words posts : List Bytes} (h : Talk n.browser named ok words posts) (c : Conn) :
    posts.filterMap (wordsOf n.env.platform.lib c) = words.filter (clean n.env.platform.lib) := by
  rcases h with ⟨rfl, rfl⟩ | ⟨name, hn, hw, rfl⟩
  · rfl
  · have hnone : wordsOf n.env.platform.lib c (n.browser.stringify (setNameFrame name)) = none := by
      have hact := act_of_setName (hname name hn) (n.env.wsi_of c) c
      rw [wordsOf, show (callIn _ _).bind (callAct c) = _ from hact]
      unfold whenClean
      split <;> rfl
    rw [List.filterMap_cons_none hnone, List.filterMap_map, ← List.filterMap_eq_filter]
    refine List.filterMap_congr fun t ht => ?_
    have hact := act_of_words (hwords t (hw t ht)) (n.env.wsi_of c) c
    show wordsOf n.env.platform.lib c (n.browser.stringify (wordsFrame t)) = _
    rw [wordsOf, show (callIn _ _).bind (callAct c) = _ from hact]
    unfold whenClean Option.guard
    split <;> rfl

/-! ## What is shown of it -/

def contentOf : Post → Option Bytes
  | .message _ content => some content
  | _ => none

/-- The words of the messages in a window, oldest first. -/
def contents (p : Page) : List Bytes := ((publicPosts p).filterMap contentOf).reverse

theorem contents_shown (lines : List ChatLine) :
    (lines.filterMap shown).filterMap contentOf = lines.filterMap Room.wordsIn := by
  rw [List.filterMap_filterMap]
  refine List.filterMap_congr fun l _ => ?_
  cases l <;> rfl

/-- When no allocation fails, and each message of a page arrives in one piece, the clean texts that
users submit on open web sockets are said once each, in their order, if they are not on their way
yet, and no page can say anything else. What any window shows of it are some of these words in the
order in which they were said, and the newest of them are all that was said since its web socket
connected, when this is open and has caught up. -/
theorem each_text_is_said_once (n : Setting) (hlib : ReadsUtf8 n.env.platform.lib)
    {oom fails : Nat → Bool} (hoom : ∀ i, oom i = false) (hfails : ∀ i, fails i = false)
    {ms : List Move} (hms : ∀ m ∈ ms, InOnePiece m) {s : Net} {trace : List Happened}
    (hr : run (step n) (start oom fails) ms = .ok (s, trace))
    (htext : ∀ t, n.browser.toText (.string t) = some t) (hread : ReadBack n trace)
    (hserver : ServerReads n trace) :
    ∃ said : List (Conn × Bytes), (logOf n trace).filterMap Room.wordsIn = said.map (·.2) ∧
      (∀ page socket, ∃ waiting : List Bytes,
        saidBy (n.conn_of page socket) said ++ waiting =
          (submittedOn n trace page socket).filter (clean n.env.platform.lib) ∧
        waiting.length ≤ (s.up page socket).length) ∧
      ∀ page, (contents (s.pages page)).Sublist (said.map (·.2)) ∧
        ∀ socket, stateOf (s.pages page) socket = .opened → CaughtUp n s page socket →
          ∃ since, said.map (·.2) =
              (saidBefore n trace page socket).filterMap Room.wordsIn ++ since ∧
            since <:+ contents (s.pages page) := by
  have h := connected hr
  have hwords : (logOf n trace).filterMap Room.wordsIn = (saidIn n trace).map (·.2) :=
    Room.words_log _ _
  have hcontents : ∀ page, contents (s.pages page) =
      (heardBelow n trace page (s.pages page).sockets.length).filterMap Room.wordsIn := by
    intro page
    unfold contents
    rw [h.window hlib hoom hfails hread htext, List.filterMap_reverse, contents_shown,
      List.reverse_reverse]
  refine ⟨saidIn n trace, hwords, fun page socket => ?_,
    fun page => ⟨?_, fun socket hopen hcaught =>
    ⟨(heardOn n trace page socket).filterMap Room.wordsIn, ?_, ?_⟩⟩⟩
  · refine ⟨(s.up page socket).filterMap (wordsOf n.env.platform.lib (n.conn_of page socket)), ?_,
      List.length_filterMap_le _ _⟩
    rw [saidBy_arrived, ← List.filterMap_append, arrives hms hr page socket]
    exact words_of_talk (hserver page).1 (hserver page).2 (h.talks page socket) _
  · have hordered := h.ordered page (s.pages page).sockets.length
    rw [Room.upTo_of_never (h.unborn page _ (Nat.le_refl _))] at hordered
    rw [← hwords, hcontents]
    exact hordered.filterMap _
  · rw [← hwords, h.caught_up hlib hoom hfails hread hcaught, List.filterMap_append]
  · rw [hcontents, ← (h.follows page).open hopen]
    unfold heardBelow
    rw [List.range_succ, List.flatMap_append, List.flatMap_singleton, List.filterMap_append]
    exact List.suffix_append _ _

/-- The network of the other example, where the server knows what its users type. -/
def typingNet : Setting :=
  { smallNet with env := { chatEnv with platform := ⟨carefulLib, ⟨64, 24, 16⟩⟩ } }

def typedIn : Happened → Option Bytes
  | .callback _ _ => none
  | .event _ e _ => (nicknameIn e).or (messageIn e)

/-- A test of what is typed anywhere. -/
theorem serverReads_of_test {trace : List Happened} (h : trace.filterMap typedIn ⊆ fieldTexts) :
    ServerReads typingNet trace := by
  have hin : ∀ page, ∀ e ∈ eventsAt page trace, ∀ t, (nicknameIn e).or (messageIn e) = some t →
      t ∈ fieldTexts := by
    intro page e he t ht
    obtain ⟨x, hx, hat⟩ := List.mem_filterMap.mp he
    refine h (List.mem_filterMap.mpr ⟨x, hx, ?_⟩)
    cases x with
    | callback cb out => cases hat
    | event p e' out =>
      obtain rfl := Option.some.inj (Option.ite_none_right_eq_some.mp hat).2
      exact ht
  intro page
  constructor
  · intro t ht
    refine (reads_carefully t ?_).1
    rcases List.mem_cons.mp ht with rfl | ht
    · decide
    · obtain ⟨e, he, hname⟩ := List.mem_filterMap.mp ht
      exact hin page e he t (by rw [hname]; rfl)
  · intro t ht
    refine (reads_carefully t ?_).2
    rcases List.mem_cons.mp ht with rfl | ht
    · decide
    · rcases List.mem_cons.mp ht with rfl | ht
      · decide
      · obtain ⟨e, he, hwords⟩ := List.mem_filterMap.mp ht
        refine hin page e he t ?_
        cases e with
        | edit_message value => exact hwords
        | _ => cases hwords

/-- In the end the user types a text with a NUL. -/
def speaksAgain : List Move :=
  comesBack ++ [.user 0 (.edit_message [104, 0, 105]), .user 0 .click_submit, .arrives 0 1]

/-- A user speaks, comes back, and says nothing more that the server reads. -/
theorem each_text_is_said_once_sample :
    ∃ s trace said, run (step typingNet) (start never never) speaksAgain = .ok (s, trace) ∧
      contents (s.pages 0) = [text "hi"] ∧ submittedOn typingNet trace 0 1 = [[104, 0, 105]] ∧
      (logOf typingNet trace).filterMap Room.wordsIn = said.map (·.2) ∧
      saidBy (Nat.pair 0 0) said = [text "hi"] ∧ saidBy (Nat.pair 0 1) said = [] := by
  have htest : runEnds (step typingNet) (start never never) speaksAgain (fun s trace =>
      decide (contents (s.pages 0) = [text "hi"] ∧ s.up 0 0 = [] ∧ s.up 0 1 = [] ∧
        submittedOn typingNet trace 0 0 = [text "hi"] ∧
        submittedOn typingNet trace 0 1 = [[104, 0, 105]] ∧
        trace.filterMap typedIn ⊆ fieldTexts) &&
      ((serverOut trace).filterMap frameIn).all (fun v =>
        ((typingNet.env.platform.lib.dumps v).bind typingNet.browser.parse).any v.same)) =
      true := by
    decide +kernel
  obtain ⟨s, trace, hrun, htest⟩ := runEnds_spec htest
  obtain ⟨hstate, hread⟩ := Bool.and_eq_true_iff.mp htest
  obtain ⟨hcontents, hup0, hup1, hsubmitted0, hsubmitted1, htexts⟩ := of_decide_eq_true hstate
  have hlib : ReadsUtf8 typingNet.env.platform.lib := sampleLib_reads (by decide +kernel)
  have hms : ∀ m ∈ speaksAgain, InOnePiece m := by
    simp [speaksAgain, comesBack, InOnePiece]
  obtain ⟨said, hlog, hsaid, _⟩ := each_text_is_said_once typingNet hlib (fun _ => rfl)
    (fun _ => rfl) hms hrun (fun _ => rfl) (readBack_of_test hread) (serverReads_of_test htexts)
  -- nothing is on its way any more
  have hdone : ∀ socket, s.up 0 socket = [] → saidBy (Nat.pair 0 socket) said =
      (submittedOn typingNet trace 0 socket).filter (clean carefulLib) := by
    intro socket hup
    obtain ⟨waiting, hall, hwaiting⟩ := hsaid 0 socket
    rw [hup] at hwaiting
    obtain rfl := List.eq_nil_of_length_eq_zero (Nat.le_zero.mp hwaiting)
    rw [List.append_nil] at hall
    exact hall
  refine ⟨s, trace, said, hrun, hcontents, hsubmitted1, hlog, ?_, ?_⟩
  · rw [hdone 0 hup0, hsubmitted0]
    decide +kernel
  · rw [hdone 1 hup1, hsubmitted1]
    decide +kernel

end jrpc.network

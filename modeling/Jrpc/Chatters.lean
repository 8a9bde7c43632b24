-- What the handlers of the chat server do, whatever memory they find. Each of them says a list
-- of frames, gives up all JSON values that it made, and changes the map of chatters as the pure
-- model beside it says. A frame may be incomplete only when memory runs out.
import Jrpc.ChatServer
import Jrpc.Room

open heap runs unordered room
open jrpc.json jrpc.message jrpc.queue jrpc.connection jrpc.protocol jrpc.service

namespace jrpc.chatserver

/-! ## The pure model -/

abbrev ChatAct := room.Act Conn Bytes Bytes Int32 Bytes

abbrev ChatLine := room.Line Bytes Bytes Int32 Bytes

def pairFrame (method first second : Bytes) : Json :=
  .object [("method", .string method), ("params", .array [.string first, .string second])]

def errorFrame (code : Int32) (message : Bytes) (id : Int32) : Json :=
  .object [("error", .object [("code", .integer code.toInt64), ("message", .string message)]),
    ("id", .integer id.toInt64)]

/-- The frame of what is heard in the room. -/
def lineFrame : ChatLine → Json
  | .arrived who => pairFrame (text "announce") (text "arrived") who
  | .gone who => pairFrame (text "announce") (text "gone") who
  | .message who words => pairFrame (text "message") who words
  | .granted name id =>
    .object [("result", .object [("name", .string name)]), ("id", .integer id.toInt64)]
  | .refused id => errorFrame 1 (text "name already used") id
  | .rejected reason id => errorFrame (-1) reason id

/-- The texts of a line that the JSON library checks. -/
def lineTexts : ChatLine → List Bytes
  | .arrived who => [text "announce", text "arrived", who]
  | .gone who => [text "announce", text "gone", who]
  | .message who words => [text "message", who, words]
  | .granted name _ => [name]
  | .refused _ => [text "name already used"]
  | .rejected reason _ => [reason]

/-- The text that a handler reads from its parameters. -/
def firstText : Json → Option Bytes
  | .array (.string t :: _) => some (cString t)
  | _ => none

/-- A line for each chatter, in the order of the walk. -/
def toAll (m : UnorderedMap Conn Chatter) (l : ChatLine) : List (Conn × ChatLine) :=
  m.entries.map fun item => (item.2.connection, l)

def nameIn (m : UnorderedMap Conn Chatter) (who : Conn) : Bytes :=
  ((m.find who).map (·.name)).getD []

def usedIn (m : UnorderedMap Conn Chatter) (name : Bytes) : Bool :=
  m.entries.any fun item => item.2.name = name

def renamed (m : UnorderedMap Conn Chatter) (who : Conn) (name : Bytes) :
    UnorderedMap Conn Chatter :=
  m.modify who fun c => { c with name }

/-- The map after an act, and the lines that are sent, oldest first. -/
def effect (hashing : Hashing Conn Chatter) (m : UnorderedMap Conn Chatter) :
    ChatAct → UnorderedMap Conn Chatter × List (Conn × ChatLine)
  | .enter c => (m.insert hashing c ⟨c, []⟩, [])
  | .leave c => (m.erase c, toAll m (.gone (nameIn m c)))
  | .rename c name id =>
    if usedIn m name then (m, [(c, .refused id)])
    else (renamed m c name, (c, .granted name id) :: toAll (renamed m c name) (.arrived name))
  | .say c words => (m, toAll m (.message (nameIn m c) words))
  | .mistake c reason id => (m, [(c, .rejected reason id)])

/-! ## What is said -/

/-- The sends are those of the list, one for each, in this order. When `full` holds, each
message was created, and it is the frame of its line. -/
def SaysAll (full : Prop) (lines : List (Conn × ChatLine)) (out : List Event) : Prop :=
  List.Forall₂ (fun x e => ∃ object message, e = .send x.1 object message ∧
    (full → object = some (lineFrame x.2) ∧ message.isSome)) lines (sends out)

theorem saysAll_nil {full : Prop} {out : List Event} (h : sends out = []) :
    SaysAll full [] out := by
  unfold SaysAll
  rw [h]
  exact .nil

theorem SaysAll.append {full : Prop} {l l' : List (Conn × ChatLine)} {o o' : List Event}
    (h : SaysAll full l o) (h' : SaysAll full l' o') : SaysAll full (l ++ l') (o ++ o') := by
  unfold SaysAll at h h' ⊢
  rw [sends_append]
  exact List.rel_append h h'

theorem SaysAll.weaken {full full' : Prop} {l : List (Conn × ChatLine)} {o : List Event}
    (h : SaysAll full l o) (hfull : full' → full) : SaysAll full' l o := by
  refine List.Forall₂.imp ?_ h
  rintro x e ⟨object, message, he, hx⟩
  exact ⟨object, message, he, fun hf => hx (hfull hf)⟩

theorem sends_spoken {full : Prop} {c : Conn} {line : ChatLine} {out : List Event}
    (h : Says full c (lineFrame line) out) : SaysAll full [(c, line)] out := by
  obtain ⟨object, message, rest, rfl, hrest, hfull⟩ := h
  have hnone : sends rest = [] := by
    apply List.filter_eq_nil_iff.mpr
    intro e he
    obtain ⟨wsi, rfl⟩ := hrest e he
    exact Bool.false_ne_true
  have hsends : sends (.send c object message :: rest) = [.send c object message] := by
    unfold sends at hnone ⊢
    rw [List.filter_cons_of_pos rfl, hnone]
  unfold SaysAll
  rw [hsends]
  exact .cons ⟨object, message, rfl, hfull⟩ .nil

/-- A walk says what its statements say. -/
theorem saysAll_flatten {full : Prop} {α : Type} {f : α → Conn × ChatLine} {items : List α}
    {outs : List (List Event)}
    (h : List.Forall₂ (fun x out => SaysAll full [f x] out) items outs) :
    SaysAll full (items.map f) outs.flatten := by
  induction h with
  | nil => exact saysAll_nil rfl
  | @cons x o items outs hx _ ih => exact hx.append ih

/-! ## Memory -/

/-- No allocation fails from now on, in the server or in its handlers. -/
def NoneFails (w : World Statics) : Prop := Plenty w.mach ∧ ∀ n, w.user.oom n = false

/-- A handler that began in the first state is in the second one. It has no JSON values of its
own, and the map of chatters is this one. -/
structure Within (env : Env Statics) (w0 w : World Statics) (m : UnorderedMap Conn Chatter) :
    Prop where
  refines : ∃ b, Refines env w b
  phase : w.phase = w0.phase
  json : w.mach.json = w0.mach.json
  chatters : w.user.chatters = m
  plenty : NoneFails w0 → NoneFails w

/-- A handler that builds a value: so many of its calls of the library are done, and this is the
store. -/
def building (w : World Statics) (json : JsonStore) (n : Nat) : World Statics :=
  { w.setJson json with user := { w.user with oom := later n w.user.oom } }

theorem Within.built {env : Env Statics} {w0 w : World Statics} {m : UnorderedMap Conn Chatter}
    (h : Within env w0 w m) (json : JsonStore) (n : Nat) :
    (∃ b, Refines env (building w json n) b) ∧
      (building w json n).phase = w0.phase ∧
      (building w json n).user.chatters = m ∧
      (NoneFails w0 → NoneFails (building w json n)) := by
  obtain ⟨b, hb⟩ := h.refines
  refine ⟨⟨b, hb.congr rfl rfl (fun _ => rfl) (fun _ => rfl) rfl⟩, h.phase, h.chatters, ?_⟩
  intro hw
  obtain ⟨hmach, hoom⟩ := h.plenty hw
  exact ⟨hmach, fun i => hoom (i + n)⟩

/-! ## One call that sends -/

/-- A handler that built a value sends it, and has no JSON values any more. -/
theorem Within.send {env : Env Statics} {w0 w : World Statics} {m : UnorderedMap Conn Chatter}
    (h : Within env w0 w m) {c : Conn} (hc : w0.phase c = .established) {json : JsonStore} {n : Nat}
    {call : Send} (hvalid : Send.ValidIn json call)
    (hback : json_decref (argumentOf call) json = w0.mach.json) (k : UserProg Statics)
    {line : ChatLine} {full : Prop} (hfull : full → NoneFails w0)
    (htext : full → textOk env.platform.lib call = true)
    (hframe : full → frameOf json call = some (lineFrame line)) :
    ∃ w' out, Leads env.platform (.send c call k) (building w json n) k w' out ∧
      Within env w0 w' m ∧ SaysAll full [(c, line)] out := by
  obtain ⟨⟨b, hb⟩, hphase, hchatters, hplenty⟩ := h.built json n
  obtain ⟨mach, out, b', hleads, hb', hjson, hoom, hspoken⟩ :=
    send_leads hb (hphase ▸ hc) hvalid k (fun hf => (hplenty (hfull hf)).1) htext
      hframe
  refine ⟨_, out, hleads, ⟨⟨b', hb'⟩, hphase, hjson.trans hback, hchatters, ?_⟩,
    sends_spoken hspoken⟩
  intro hw
  obtain ⟨hmach, hfails⟩ := hplenty hw
  exact ⟨hmach.later hoom, hfails⟩

/-- An error is sent without any value. -/
theorem respond_error_leads {env : Env Statics} {w0 w : World Statics}
    {m : UnorderedMap Conn Chatter} (h : Within env w0 w m) (hs : w0.mach.json.Closed) {c : Conn}
    (hc : w0.phase c = .established) (code : Int32) (message : Bytes) (id : Int32)
    (k : UserProg Statics) {line : ChatLine} (hline : lineFrame line = errorFrame code message id) :
    ∃ w' out, Leads env.platform (.send c (.respond_error code message id) k) w k w' out ∧
      Within env w0 w' m ∧
      SaysAll (NoneFails w0 ∧ env.platform.lib.utf8 message = true) [(c, line)] out := by
  have hvalid : Send.ValidIn w.mach.json (.respond_error code message id) := by
    rw [h.json]
    exact hs
  have hback : json_decref (argumentOf (.respond_error code message id)) w.mach.json =
    w0.mach.json := h.json
  refine h.send (n := 0) hc hvalid hback k (fun hf => hf.1) (fun hf => hf.2) (fun _ => ?_)
  rw [hline]
  rfl

/-! ## The values that a handler builds -/

/-- `json_array_append_new(array, json_string(t))`. -/
def appendText (lib : JsonLib) (lost fails : Bool) (array : Option JsonRef) (t : Bytes)
    (s : JsonStore) : JsonStore :=
  json_array_append_new fails array (json_string lib lost t s).2 (json_string lib lost t s).1

/-- `json_object_set_new(object, key, json_string(t))`. -/
def setText (lib : JsonLib) (lost fails : Bool) (object : Option JsonRef) (key : String)
    (t : Bytes) (s : JsonStore) : JsonStore :=
  json_object_set_new fails object key (json_string lib lost t s).2 (json_string lib lost t s).1

/-- The array that a notification carries. -/
def pairArray (lib : JsonLib) (oom : Nat → Bool) (first second : Bytes) (s : JsonStore) :
    JsonStore × Option JsonRef :=
  let (s, params) := json_array (oom 0) s
  (appendText lib (oom 3) (oom 4) params second (appendText lib (oom 1) (oom 2) params first s),
    params)

/-- The object that is the result of a new name. -/
def nameObject (lib : JsonLib) (oom : Nat → Bool) (name : Bytes) (s : JsonStore) :
    JsonStore × Option JsonRef :=
  let (s, result) := json_object (oom 0) s
  (setText lib (oom 1) (oom 2) result "name" name s, result)

theorem appendText_none (lib : JsonLib) (lost fails : Bool) (t : Bytes) (s : JsonStore) :
    appendText lib lost fails none t s = s := by
  unfold appendText json_string
  split
  · rfl
  · exact array_append_none fails rfl

/-- The text is appended, or it is given up again. -/
theorem appendText_onTop (lib : JsonLib) (lost fails : Bool) (t : Bytes) {a : Nat}
    {u s : JsonStore} {rs : List JsonRef} {vs : List Json} (h : OnTop a u s (.array rs) vs) :
    ∃ rs' vs', OnTop a u (appendText lib lost fails (some (.node a)) t s) (.array rs') vs' ∧
      (lost = false → fails = false → lib.utf8 t = true → vs' = vs ++ [.string t]) := by
  unfold appendText json_string
  by_cases hlost : (lost || !lib.utf8 t) = true
  · rw [if_pos hlost]
    refine ⟨rs, vs, h, ?_⟩
    rintro rfl _ htext
    simp [htext] at hlost
  · rw [if_neg hlost]
    cases fails with
    | true =>
      dsimp only
      rw [h.append_fails rfl]
      exact ⟨rs, vs, h, fun _ hf => by cases hf⟩
    | false => exact ⟨_, _, h.append rfl, fun _ _ _ => rfl⟩

theorem setText_none (lib : JsonLib) (lost fails : Bool) (key : String) (t : Bytes)
    (s : JsonStore) : setText lib lost fails none key t s = s := by
  unfold setText json_string
  split
  · rfl
  · exact json_decref_new rfl

/-- The text becomes the first member, or it is given up again. -/
theorem setText_onTop (lib : JsonLib) (lost fails : Bool) (key : String) (t : Bytes) {a : Nat}
    {u s : JsonStore} (h : OnTop a u s (.object []) []) :
    ∃ ms vs, OnTop a u (setText lib lost fails (some (.node a)) key t s) (.object ms) vs ∧
      (lost = false → fails = false → lib.utf8 t = true →
        ∃ r, ms = [(key, r)] ∧ vs = [.string t]) := by
  unfold setText json_string
  by_cases hlost : (lost || !lib.utf8 t) = true
  · rw [if_pos hlost]
    refine ⟨[], [], h, ?_⟩
    rintro rfl _ htext
    simp [htext] at hlost
  · rw [if_neg hlost]
    cases fails with
    | true =>
      dsimp only
      rw [h.set_fails key rfl]
      exact ⟨[], [], h, fun _ hf => by cases hf⟩
    | false =>
      have hkey : ([] : List (String × JsonRef)).lookup key = none := rfl
      exact ⟨_, _, h.set hkey rfl, fun _ _ _ => ⟨_, rfl, rfl⟩⟩

theorem pairArray_spec (lib : JsonLib) (oom : Nat → Bool) (first second : Bytes) {s : JsonStore}
    (hs : s.Closed) :
    Sendable s (pairArray lib oom first second s).1 (pairArray lib oom first second s).2 ∧
      ((∀ n, oom n = false) → lib.utf8 first = true → lib.utf8 second = true →
        ((pairArray lib oom first second s).2.bind (pairArray lib oom first second s).1.read) =
          some (.array [.string first, .string second])) := by
  unfold pairArray json_array
  rcases hoom : oom 0 with _ | _
  · have hnew : OnTop s.nodes.next s (s.new (.array [])).1 (.array []) [] := onTop_new hs rfl
    obtain ⟨rs1, vs1, h1, hvs1⟩ := appendText_onTop lib (oom 1) (oom 2) first hnew
    obtain ⟨rs2, vs2, h2, hvs2⟩ := appendText_onTop lib (oom 3) (oom 4) second h1
    refine ⟨h2.sendable hs, fun hfree hfirst hsecond => ?_⟩
    have hread := h2.read_array
    rw [hvs2 (hfree 3) (hfree 4) hsecond, hvs1 (hfree 1) (hfree 2) hfirst] at hread
    exact hread
  · simp only [if_true, appendText_none]
    refine ⟨sendable_none hs, fun hfree => ?_⟩
    rw [hfree 0] at hoom
    cases hoom

theorem nameObject_spec (lib : JsonLib) (oom : Nat → Bool) (name : Bytes) {s : JsonStore}
    (hs : s.Closed) :
    Sendable s (nameObject lib oom name s).1 (nameObject lib oom name s).2 ∧
      ((∀ n, oom n = false) → lib.utf8 name = true →
        ((nameObject lib oom name s).2.bind (nameObject lib oom name s).1.read) =
          some (.object [("name", .string name)])) := by
  unfold nameObject json_object
  rcases hoom : oom 0 with _ | _
  · have hnew : OnTop s.nodes.next s (s.new (.object [])).1 (.object []) [] := onTop_new hs rfl
    obtain ⟨ms, vs, h, hfull⟩ := setText_onTop lib (oom 1) (oom 2) "name" name hnew
    refine ⟨h.sendable hs, fun hfree htext => ?_⟩
    obtain ⟨r, rfl, rfl⟩ := hfull (hfree 1) (hfree 2) htext
    exact h.read_object
  · simp only [if_true, setText_none]
    refine ⟨sendable_none hs, fun hfree => ?_⟩
    rw [hfree 0] at hoom
    cases hoom

/-! ## Notifications and errors -/

/-- The JSON library takes all texts of the line. -/
def TextsOk (lib : JsonLib) (line : ChatLine) : Prop := ∀ t ∈ lineTexts line, lib.utf8 t = true

theorem notifyPair_leads {env : Env Statics} {w0 w : World Statics}
    {m : UnorderedMap Conn Chatter} (h : Within env w0 w m) (hs : w0.mach.json.Closed) {c : Conn}
    (hc : w0.phase c = .established) {method first second : Bytes} (line : ChatLine)
    (hline : lineFrame line = pairFrame method first second)
    (htexts : lineTexts line = [method, first, second]) (k : UserProg Statics) :
    ∃ w' out, Leads env.platform (notifyPair env.platform.lib c method first second k) w k w' out ∧
      Within env w0 w' m ∧
      SaysAll (NoneFails w0 ∧ TextsOk env.platform.lib line) [(c, line)] out := by
  have hclosed : w.mach.json.Closed := by
    rw [h.json]
    exact hs
  obtain ⟨hsend, hread⟩ := pairArray_spec env.platform.lib w.user.oom first second hclosed
  generalize hbuilt : pairArray env.platform.lib w.user.oom first second w.mach.json = built
    at hsend hread
  have hbuild : Leads env.platform (notifyPair env.platform.lib c method first second k) w
      (.send c (.notify method built.2) k) (building w built.1 5) [] := by
    rw [← hbuilt]
    exact Leads.refl env.platform _ _
  have hvalid : Send.ValidIn built.1 (.notify method built.2) := by
    refine ⟨hsend.closed, ?_⟩
    rcases hvalue : built.2 with _ | r
    · trivial
    · exact hsend.live r hvalue
  have htext : ∀ t, t ∈ [method, first, second] → TextsOk env.platform.lib line →
      env.platform.lib.utf8 t = true := by
    intro t ht hok
    exact hok t (htexts ▸ ht)
  have hframe : NoneFails w0 ∧ TextsOk env.platform.lib line →
      frameOf built.1 (.notify method built.2) = some (lineFrame line) := by
    intro hf
    have hvalue := hread (h.plenty hf.1).2 (htext first (by simp) hf.2)
      (htext second (by simp) hf.2)
    simp only [frameOf, hvalue, hline, Option.map_some]
    rfl
  obtain ⟨w', out, hleads, hwithin, hspoken⟩ := h.send hc hvalid (hsend.back.trans h.json) k
    (fun hf => hf.1) (fun hf => htext method (by simp) hf.2) hframe
  exact ⟨w', out, hbuild.trans hleads, hwithin, hspoken⟩

/-- All chatters of the map have a session that is open. -/
def AllOpen (w : World Statics) (m : UnorderedMap Conn Chatter) : Prop :=
  ∀ item ∈ m.entries, w.phase item.2.connection = .established

/-- A walk over all chatters sends them a line each. -/
theorem walk_leads {env : Env Statics} {w0 w : World Statics} {m : UnorderedMap Conn Chatter}
    (h : Within env w0 w m) (hopen : AllOpen w0 m) (line : ChatLine)
    (body : Conn × Chatter → UserProg Statics → UserProg Statics)
    (hbody : ∀ item ∈ m.entries, w0.phase item.2.connection = .established →
      ∀ k w, Within env w0 w m → ∃ w' out, Leads env.platform (body item k) w k w' out ∧
        Within env w0 w' m ∧
        SaysAll (NoneFails w0 ∧ TextsOk env.platform.lib line) [(item.2.connection, line)] out)
    (rest : UserProg Statics) :
    ∃ w' out, Leads env.platform (forEach m.entries body rest) w rest w' out ∧
      Within env w0 w' m ∧
      SaysAll (NoneFails w0 ∧ TextsOk env.platform.lib line) (toAll m line) out := by
  obtain ⟨w', outs, hleads, hwithin, hall⟩ := forEach_leads rest
    (fun item hitem k w hw => hbody item hitem (hopen item hitem) k w hw) h
  exact ⟨w', outs.flatten, hleads, hwithin, saysAll_flatten hall⟩

theorem announce_leads {env : Env Statics} {w0 w : World Statics} {m : UnorderedMap Conn Chatter}
    (h : Within env w0 w m) (hs : w0.mach.json.Closed) (hopen : AllOpen w0 m) {what who : Bytes}
    (line : ChatLine) (hline : lineFrame line = pairFrame (text "announce") what who)
    (htexts : lineTexts line = [text "announce", what, who]) (rest : UserProg Statics) :
    ∃ w' out, Leads env.platform (announce env.platform.lib what who rest) w rest w' out ∧
      Within env w0 w' m ∧
      SaysAll (NoneFails w0 ∧ TextsOk env.platform.lib line) (toAll m line) out := by
  have hlook : Leads env.platform (announce env.platform.lib what who rest) w
      (forEach w.user.chatters.entries (fun item rest =>
        notifyPair env.platform.lib item.2.connection (text "announce") what who rest) rest) w
      [] := Leads.refl env.platform _ _
  rw [h.chatters] at hlook
  obtain ⟨w', out, hleads, hwithin, hspoken⟩ := walk_leads h hopen line _
    (fun item _ hc k w hw => notifyPair_leads hw hs hc line hline htexts k) rest
  exact ⟨w', out, hlook.trans hleads, hwithin, hspoken⟩

/-! ## The handlers -/

/-- What a handler did that began in the first state and ended in the second one. -/
structure Does (env : Env Statics) (w0 w : World Statics)
    (result : UnorderedMap Conn Chatter × List (Conn × ChatLine)) (out : List Event) : Prop where
  within : Within env w0 w result.1
  spoken : SaysAll (NoneFails w0 ∧ ∀ x ∈ result.2, TextsOk env.platform.lib x.2) result.2 out

/-- The parameters of a request, as a handler finds them in the store. -/
theorem first_text {s : JsonStore} {r : JsonRef} {v : Json} (h : s.read r = some v) :
    (((some r).bind fun r => json_array_get s r 0).any (json_is_string s) =
        (firstText v).isSome) ∧
      ∀ t, firstText v = some t →
        cString ((((some r).bind fun r => json_array_get s r 0).map
          (json_string_value s)).getD []) = t := by
  rw [Option.bind_some]
  unfold JsonStore.read at h
  cases r with
  | node a =>
    rw [readFuel_node] at h
    rcases hc : s.nodes.cells a with _ | ⟨k, node⟩
    · simp [hc] at h
    · simp only [hc] at h
      unfold json_array_get
      rw [node?_of_cell hc]
      cases node with
      | array rs =>
        obtain ⟨vs, hvs, rfl⟩ := Option.map_eq_some_iff.mp h
        have hall := mapM_some_forall₂ hvs
        cases hall with
        | nil => exact ⟨rfl, fun t ht => by cases ht⟩
        | @cons x y xs ys hx _ =>
          obtain ⟨hstring, hvalue, _⟩ := node_of_reads hx
          dsimp only
          rw [List.getElem?_cons_zero, Option.any_some, Option.map_some, Option.getD_some,
            hstring, hvalue]
          cases y with
          | string t => exact ⟨rfl, fun u hu => Option.some.inj hu⟩
          | _ => exact ⟨rfl, fun u hu => by cases hu⟩
      | object ms =>
        obtain ⟨vs, hvs, rfl⟩ := Option.map_eq_some_iff.mp h
        exact ⟨rfl, fun t ht => by cases ht⟩
      | _ =>
        cases h
        exact ⟨rfl, fun t ht => by cases ht⟩
  | _ =>
    simp at h
    subst h
    exact ⟨rfl, fun t ht => by cases ht⟩

/-- Each chatter has the connection that it is found under, which is open. -/
structure Sound (w : World Statics) (m : UnorderedMap Conn Chatter) : Prop where
  own : ∀ item ∈ m.entries, item.2.connection = item.1
  opened : ∀ item ∈ m.entries, w.phase item.1 = .established

theorem Sound.allOpen {w : World Statics} {m : UnorderedMap Conn Chatter} (h : Sound w m) :
    AllOpen w m := by
  intro item hitem
  rw [h.own item hitem]
  exact h.opened item hitem

/-- The chatter that a reference refers to. -/
theorem Sound.chatter {w : World Statics} {g : Statics} (h : Sound w g.chatters) {who : ChatterRef}
    {c : Chatter} (hwho : g.chatters.find who = some c) :
    g.chatter who = c ∧ c.connection = who ∧ w.phase who = .established ∧
      nameIn g.chatters who = c.name := by
  have hmem := UnorderedMap.find_iff.mp hwho
  refine ⟨?_, h.own _ hmem, h.opened _ hmem, ?_⟩
  · unfold Statics.chatter
    rw [hwho, Option.getD_some]
  · unfold nameIn
    rw [hwho, Option.map_some, Option.getD_some]

theorem Sound.renamed {w : World Statics} {m : UnorderedMap Conn Chatter} (h : Sound w m)
    (who : Conn) (name : Bytes) : Sound w (renamed m who name) := by
  have hentry : ∀ item ∈ (chatserver.renamed m who name).entries,
      ∃ old ∈ m.entries, item.1 = old.1 ∧ item.2.connection = old.2.connection := by
    intro item hitem
    obtain ⟨old, hold, rfl⟩ := List.mem_map.mp hitem
    refine ⟨old, hold, UnorderedMap.modifyEntry_fst _ _ _, ?_⟩
    unfold UnorderedMap.modifyEntry
    split <;> rfl
  refine ⟨fun item hitem => ?_, fun item hitem => ?_⟩
  · obtain ⟨old, hold, hkey, hconnection⟩ := hentry item hitem
    rw [hkey, hconnection, h.own old hold]
  · obtain ⟨old, hold, hkey, _⟩ := hentry item hitem
    rw [hkey, h.opened old hold]

theorem within_start {env : Env Statics} {w : World Statics} (h : ∃ b, Refines env w b) :
    Within env w w w.user.chatters := ⟨h, rfl, rfl, rfl, id⟩

/-- A handler that answers with an error and does nothing else. -/
theorem error_does {env : Env Statics} {w : World Statics} (h : ∃ b, Refines env w b)
    (hs : w.mach.json.Closed) {c : Conn} (hc : w.phase c = .established) {code : Int32}
    {message : Bytes} {id : Int32} {line : ChatLine}
    (hline : lineFrame line = errorFrame code message id) (htexts : lineTexts line = [message]) :
    ∃ w' out, exec env.platform (.send c (.respond_error code message id) .ret) w = .ok (w', out) ∧
      Does env w w' (w.user.chatters, [(c, line)]) out := by
  obtain ⟨w', out, hleads, hwithin, hspoken⟩ :=
    respond_error_leads (within_start h) hs hc code message id .ret hline
  refine ⟨w', out, hleads.done, hwithin, hspoken.weaken ?_⟩
  intro hf
  exact ⟨hf.1, hf.2 _ List.mem_cons_self message (htexts ▸ List.mem_cons_self)⟩

theorem exec_look (p : Platform) (k : Statics → JsonStore → UserProg Statics)
    (w : World Statics) : exec p (look k) w = exec p (k w.user w.mach.json) w := rfl

theorem look_leads (p : Platform) (k : Statics → JsonStore → UserProg Statics)
    (w : World Statics) : Leads p (look k) w (k w.user w.mach.json) w [] := Leads.refl p _ _

/-- The result of a new name is built. -/
theorem nameObject_leads (p : Platform) (name : Bytes) (k : Option JsonRef → UserProg Statics)
    (w : World Statics) :
    Leads p (library json_object fun result =>
        library (fun fails => json_string p.lib fails name) fun value =>
        set result "name" value (k result)) w
      (k (nameObject p.lib w.user.oom name w.mach.json).2)
      (building w (nameObject p.lib w.user.oom name w.mach.json).1 3) [] :=
  Leads.refl p _ _

/-- The chatter has its new name, and this is answered and announced. -/
theorem granted_leads {env : Env Statics} {w0 w : World Statics} {m : UnorderedMap Conn Chatter}
    (h : Within env w0 w m) (hs : w0.mach.json.Closed) (hsound : Sound w0 m) {who : ChatterRef}
    {c : Chatter} (hwho : m.find who = some c) (id : Int32) :
    ∃ w' out, Leads env.platform (library json_object fun result =>
        library (fun fails => json_string env.platform.lib fails c.name) fun value =>
        set result "name" value <|
        look fun g _ => .send (g.chatter who).connection (.respond result id) <|
        look fun g _ => announce env.platform.lib (text "arrived") (g.chatter who).name .ret)
        w .ret w' out ∧
      Does env w0 w' (m, (who, .granted c.name id) :: toAll m (.arrived c.name)) out := by
  have hclosed : w.mach.json.Closed := by
    rw [h.json]
    exact hs
  have hchatter : ∀ g : Statics, g.chatters = m → g.chatter who = c := by
    rintro g rfl
    exact (hsound.chatter hwho).1
  have hmem := UnorderedMap.find_iff.mp hwho
  obtain ⟨hsend, hread⟩ := nameObject_spec env.platform.lib w.user.oom c.name hclosed
  have hbuild := nameObject_leads env.platform c.name (fun result =>
    look fun g _ => .send (g.chatter who).connection (.respond result id) <|
    look fun g _ => announce env.platform.lib (text "arrived") (g.chatter who).name .ret) w
  generalize nameObject env.platform.lib w.user.oom c.name w.mach.json = built
    at hsend hread hbuild
  -- the answer goes to the one who asked
  have hconnection : ((building w built.1 3).user.chatter who).connection = who := by
    have hsame : (building w built.1 3).user.chatter who = c := hchatter _ h.chatters
    rw [hsame, hsound.own _ hmem]
  have hopen : w0.phase ((building w built.1 3).user.chatter who).connection = .established := by
    rw [hconnection]
    exact hsound.opened _ hmem
  have hvalid : Send.ValidIn built.1 (.respond built.2 id) := by
    refine ⟨hsend.closed, ?_⟩
    rcases hvalue : built.2 with _ | r
    · trivial
    · exact hsend.live r hvalue
  have hframe : NoneFails w0 ∧ TextsOk env.platform.lib (.granted c.name id) →
      frameOf built.1 (.respond built.2 id) = some (lineFrame (.granted c.name id)) := by
    intro hf
    simp only [frameOf, hread (h.plenty hf.1).2 (hf.2 _ List.mem_cons_self), Option.map_some]
    rfl
  obtain ⟨w1, o1, hanswer, hw1, hsaid⟩ := h.send hopen hvalid
    (hsend.back.trans h.json)
    (look fun g _ => announce env.platform.lib (text "arrived") (g.chatter who).name .ret)
    (fun hf => hf.1) (fun _ => rfl) hframe
  rw [hconnection] at hsaid
  -- the announcement goes to all
  obtain ⟨w2, o2, hannounce, hw2, hspoken⟩ :=
    announce_leads hw1 hs hsound.allOpen (.arrived c.name) rfl rfl .ret
  rw [← hchatter _ hw1.chatters] at hannounce
  refine ⟨w2, _, hbuild.trans ((look_leads env.platform _ _).trans
    (hanswer.trans ((look_leads env.platform _ _).trans hannounce))), hw2, ?_⟩
  simp only [List.nil_append]
  refine SaysAll.append (l := [_]) (hsaid.weaken fun hf => ⟨hf.1, ?_⟩)
    (hspoken.weaken fun hf => ⟨hf.1, ?_⟩)
  · exact hf.2 _ List.mem_cons_self
  · exact hf.2 _ (List.mem_cons_of_mem _ (List.mem_map.mpr ⟨_, hmem, rfl⟩))

/-- What a request is in the room. -/
def requestAct (c : Conn) (method_name : Bytes) (params : Json) (id : Int32) : ChatAct :=
  if cString method_name = text "set_name" then
    match firstText params with
    | some name => .rename c name id
    | none => .mistake c (text "invalid params") id
  else .mistake c (text "not implemented") id

theorem set_name_does {env : Env Statics} (hashing : Hashing Conn Chatter) {w : World Statics}
    (h : ∃ b, Refines env w b) (hs : w.mach.json.Closed) (hsound : Sound w w.user.chatters)
    {who : ChatterRef} {c : Chatter} (hwho : w.user.chatters.find who = some c) {r : JsonRef}
    {v : Json} (hv : w.mach.json.read r = some v) (id : Int32) :
    ∃ w' out, exec env.platform (set_name env.platform.lib who (some r) id) w = .ok (w', out) ∧
      Does env w w' (effect hashing w.user.chatters
        (match firstText v with
        | some name => .rename who name id
        | none => .mistake who (text "invalid params") id)) out := by
  obtain ⟨hchatter, hown, hopen, _⟩ := hsound.chatter hwho
  obtain ⟨hstring, hvalue⟩ := first_text hv
  unfold set_name
  rw [exec_look]
  dsimp only
  rw [hstring, hchatter, hown]
  rcases hfirst : firstText v with _ | name
  · exact error_does h hs hopen rfl rfl
  · rw [Option.isSome_some, if_pos rfl, hvalue name hfirst]
    dsimp only [effect]
    rw [show is_name_used w.user name = usedIn w.user.chatters name from rfl]
    by_cases hused : usedIn w.user.chatters name = true
    · rw [hused, if_pos rfl]
      exact error_does h hs hopen rfl rfl
    · rw [Bool.not_eq_true] at hused
      rw [hused, if_neg Bool.false_ne_true, Bool.not_false, if_pos rfl]
      -- the map is changed before the answer is built
      have hfind : (renamed w.user.chatters who name).find who = some { c with name } := by
        unfold renamed
        rw [UnorderedMap.find_modify, if_pos rfl, hwho, Option.map_some]
      obtain ⟨b, hb⟩ := h
      have hwithin : Within env w
          { w with user := { w.user with chatters := renamed w.user.chatters who name } }
          (renamed w.user.chatters who name) :=
        ⟨⟨b, hb.congr rfl rfl (fun _ => rfl) (fun _ => rfl) rfl⟩, rfl, rfl, rfl, fun hw => hw⟩
      obtain ⟨w', out, hleads, hdoes⟩ :=
        granted_leads hwithin hs (hsound.renamed who name) hfind id
      exact ⟨w', out, hleads.done, hdoes⟩

/-- A request of a chatter is an act in the room. -/
theorem onmethod_does {env : Env Statics} (hashing : Hashing Conn Chatter) {w : World Statics}
    (h : ∃ b, Refines env w b) (hs : w.mach.json.Closed) (hsound : Sound w w.user.chatters)
    {who : Conn} {c : Chatter} (hwho : w.user.chatters.find who = some c) (method_name : Bytes)
    {r : JsonRef} {v : Json} (hv : w.mach.json.read r = some v) (id : Int32) :
    ∃ w' out, exec env.platform (onmethod env.platform.lib who method_name (some r) id) w =
        .ok (w', out) ∧
      Does env w w' (effect hashing w.user.chatters (requestAct who method_name v id)) out := by
  unfold onmethod requestAct
  rw [exec_look, hwho]
  dsimp only
  by_cases hname : cString method_name = text "set_name"
  · simp only [if_pos hname]
    exact set_name_does hashing h hs hsound hwho hv id
  · simp only [if_neg hname]
    exact error_does h hs (hsound.chatter hwho).2.2.1 rfl rfl

/-- What a notification is in the room, if it is anything. -/
def noticeAct (c : Conn) (method_name : Bytes) (params : Json) : Option ChatAct :=
  if cString method_name = text "chat" then (firstText params).map (.say c) else none

/-- What is done when nothing is done. -/
def effects (hashing : Hashing Conn Chatter) (m : UnorderedMap Conn Chatter) :
    Option ChatAct → UnorderedMap Conn Chatter × List (Conn × ChatLine)
  | some a => effect hashing m a
  | none => (m, [])

theorem idle_does {env : Env Statics} {w : World Statics} (h : ∃ b, Refines env w b) :
    ∃ w' out, exec env.platform .ret w = .ok (w', out) ∧
      Does env w w' (w.user.chatters, []) out :=
  ⟨w, [], rfl, within_start h, saysAll_nil rfl⟩

theorem chat_does {env : Env Statics} (hashing : Hashing Conn Chatter) {w : World Statics}
    (h : ∃ b, Refines env w b) (hs : w.mach.json.Closed) (hsound : Sound w w.user.chatters)
    {who : Conn} {c : Chatter} (hwho : w.user.chatters.find who = some c) {r : JsonRef} {v : Json}
    (hv : w.mach.json.read r = some v) :
    ∃ w' out, exec env.platform (chat env.platform.lib who (some r)) w = .ok (w', out) ∧
      Does env w w' (effects hashing w.user.chatters ((firstText v).map (.say who))) out := by
  obtain ⟨_, _, _, hname⟩ := hsound.chatter hwho
  obtain ⟨hstring, hvalue⟩ := first_text hv
  unfold chat
  rw [exec_look]
  dsimp only
  rw [hstring]
  rcases hfirst : firstText v with _ | words
  · exact idle_does h
  · rw [Option.isSome_some, if_pos rfl, hvalue words hfirst]
    have hbody : ∀ item ∈ w.user.chatters.entries, w.phase item.2.connection = .established →
        ∀ k w1, Within env w w1 w.user.chatters → ∃ w2 out,
          Leads env.platform (look fun g _ => notifyPair env.platform.lib item.2.connection
            (text "message") (g.chatter who).name words k) w1 k w2 out ∧
          Within env w w2 w.user.chatters ∧
          SaysAll (NoneFails w ∧ TextsOk env.platform.lib (.message c.name words))
            [(item.2.connection, .message c.name words)] out := by
      intro item _ hc k w1 hw1
      have hsame : w1.user.chatter who = c := by
        unfold Statics.chatter
        rw [hw1.chatters, hwho, Option.getD_some]
      have hlook := look_leads env.platform (fun g _ => notifyPair env.platform.lib
        item.2.connection (text "message") (g.chatter who).name words k) w1
      rw [hsame] at hlook
      obtain ⟨w2, o, hleads, hw2, hsaid⟩ :=
        notifyPair_leads hw1 hs hc (.message c.name words) rfl rfl k
      exact ⟨w2, o, hlook.trans hleads, hw2, hsaid⟩
    obtain ⟨w', out, hleads, hwithin, hspoken⟩ :=
      walk_leads (within_start h) hsound.allOpen (.message c.name words) _ hbody .ret
    refine ⟨w', out, hleads.done, ?_⟩
    rw [Option.map_some]
    dsimp only [effects, effect]
    rw [hname]
    refine ⟨hwithin, hspoken.weaken fun hf => ⟨hf.1, ?_⟩⟩
    exact hf.2 _ (List.mem_map.mpr ⟨_, UnorderedMap.find_iff.mp hwho, rfl⟩)

/-- A notification of a chatter is an act in the room, or nothing. -/
theorem onnotify_does {env : Env Statics} (hashing : Hashing Conn Chatter) {w : World Statics}
    (h : ∃ b, Refines env w b) (hs : w.mach.json.Closed) (hsound : Sound w w.user.chatters)
    {who : Conn} {c : Chatter} (hwho : w.user.chatters.find who = some c) (method_name : Bytes)
    {r : JsonRef} {v : Json} (hv : w.mach.json.read r = some v) :
    ∃ w' out, exec env.platform (onnotify env.platform.lib who method_name (some r)) w =
        .ok (w', out) ∧
      Does env w w' (effects hashing w.user.chatters (noticeAct who method_name v)) out := by
  unfold onnotify noticeAct
  rw [exec_look, hwho]
  dsimp only
  by_cases hmethod : cString method_name = text "chat"
  · simp only [if_pos hmethod]
    exact chat_does hashing h hs hsound hwho hv
  · simp only [if_neg hmethod]
    exact idle_does h

theorem onconnected_does {env : Env Statics} (hashing : Hashing Conn Chatter) {w : World Statics}
    (h : ∃ b, Refines env w b) (c : Conn) :
    ∃ w' out, exec env.platform (onconnected hashing c) w = .ok (w', out) ∧
      Does env w w' (effect hashing w.user.chatters (.enter c)) out := by
  obtain ⟨b, hb⟩ := h
  exact ⟨_, _, rfl, ⟨⟨b, hb.congr rfl rfl (fun _ => rfl) (fun _ => rfl) rfl⟩, rfl, rfl, rfl,
    fun hw => hw⟩, saysAll_nil rfl⟩

theorem ondisconnected_does {env : Env Statics} (hashing : Hashing Conn Chatter)
    {w : World Statics} (h : ∃ b, Refines env w b) (hs : w.mach.json.Closed)
    (hsound : Sound w w.user.chatters) {who : Conn} {c : Chatter}
    (hwho : w.user.chatters.find who = some c) :
    ∃ w' out, exec env.platform (ondisconnected env.platform.lib who) w = .ok (w', out) ∧
      Does env w w' (effect hashing w.user.chatters (.leave who)) out := by
  obtain ⟨_, _, _, hname⟩ := hsound.chatter hwho
  unfold ondisconnected
  rw [exec_look, hwho]
  dsimp only
  obtain ⟨w1, o, hleads, ⟨⟨b, hb⟩, hphase, hjson, hchatters, hplenty⟩, hspoken⟩ :=
    announce_leads (within_start h) hs hsound.allOpen (.gone c.name) rfl rfl
      (assign (fun g => { g with chatters := g.chatters.erase who }) .ret)
  have herase : Leads env.platform
      (assign (fun g => { g with chatters := g.chatters.erase who }) .ret) w1 .ret
      { w1 with user := { w1.user with chatters := w1.user.chatters.erase who } } [] :=
    Leads.refl env.platform _ _
  refine ⟨_, _, (hleads.trans herase).done, ?_⟩
  dsimp only [effect]
  rw [hname]
  refine ⟨⟨⟨b, hb.congr rfl rfl (fun _ => rfl) (fun _ => rfl) rfl⟩, hphase, hjson, ?_, hplenty⟩, ?_⟩
  · show w1.user.chatters.erase who = _
    rw [hchatters]
  · rw [List.append_nil]
    refine hspoken.weaken fun hf => ⟨hf.1, ?_⟩
    exact hf.2 _ (List.mem_map.mpr ⟨_, UnorderedMap.find_iff.mp hwho, rfl⟩)

end jrpc.chatserver

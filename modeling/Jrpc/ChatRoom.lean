-- The chat server is a room. Each run of it is a list of acts in the room: the map of chatters
-- is the room after them, and what is sent to a connection is what the room tells it, one
-- message for each line.
import Jrpc.ChatRuns

open heap runs unordered room
open jrpc.json jrpc.message jrpc.queue jrpc.connection jrpc.protocol jrpc.service

namespace jrpc.chatserver

/-! ## The room of a map -/

def roomOf (m : UnorderedMap Conn Chatter) : Room Conn Bytes := ⟨fun c => (m.find c).map (·.name)⟩

theorem roomOf_member (m : UnorderedMap Conn Chatter) (c : Conn) :
    ((roomOf m).name c).isSome = (m.find c).isSome := by
  unfold roomOf
  rw [Option.isSome_map]

theorem usedIn_iff (m : UnorderedMap Conn Chatter) (name : Bytes) :
    usedIn m name = true ↔ (roomOf m).Used name := by
  unfold usedIn Room.Used roomOf
  rw [List.any_eq_true]
  constructor
  · rintro ⟨⟨c, who⟩, hmem, hname⟩
    refine ⟨c, ?_⟩
    dsimp only
    rw [UnorderedMap.find_iff.mpr hmem, Option.map_some, of_decide_eq_true hname]
  · rintro ⟨c, hname⟩
    obtain ⟨who, hwho, rfl⟩ := Option.map_eq_some_iff.mp hname
    exact ⟨(c, who), UnorderedMap.find_iff.mp hwho, decide_eq_true rfl⟩

theorem roomOf_renamed {m : UnorderedMap Conn Chatter} {c : Conn} (hc : (m.find c).isSome)
    (name : Bytes) :
    roomOf (renamed m c name) = ⟨Function.update (roomOf m).name c (some name)⟩ := by
  unfold roomOf
  congr 1
  funext d
  rw [renamed, UnorderedMap.find_modify]
  by_cases hd : d = c
  · subst hd
    obtain ⟨who, hwho⟩ := Option.isSome_iff_exists.mp hc
    simp [hwho]
  · rw [if_neg hd, Function.update_of_ne hd]

/-- The map after an act is the room after it. -/
theorem roomOf_effect (hashing : Hashing Conn Chatter) {m : UnorderedMap Conn Chatter} {a : ChatAct}
    (ha : (roomOf m).Allows a) : roomOf (effect hashing m a).1 = (roomOf m).next a := by
  cases a with
  | enter c =>
    have hnone : m.find c = none := Option.map_eq_none_iff.mp ha
    unfold roomOf
    simp only [effect, Room.next, Room.mk.injEq]
    funext d
    rw [UnorderedMap.find_insert hashing _ hnone]
    by_cases hd : d = c
    · subst hd
      rw [if_pos rfl, Function.update_self]
      rfl
    · rw [if_neg hd, Function.update_of_ne hd]
  | leave c =>
    unfold roomOf
    simp only [effect, Room.next, Room.mk.injEq]
    funext d
    rw [UnorderedMap.find_erase]
    by_cases hd : d = c
    · subst hd
      rw [if_pos rfl, Function.update_self]
      rfl
    · rw [if_neg hd, Function.update_of_ne hd]
  | rename c name id =>
    simp only [effect, Room.next]
    by_cases hused : usedIn m name = true
    · rw [if_pos hused, if_pos ((usedIn_iff m name).mp hused)]
    · rw [if_neg hused, if_neg fun hu => hused ((usedIn_iff m name).mpr hu)]
      exact roomOf_renamed ((roomOf_member m c).symm.trans ha) name
  | say c words => rfl
  | mistake c reason id => rfl

/-! ## The lines for one connection -/

def lineTo (c : Conn) (x : Conn × ChatLine) : Option ChatLine := if x.1 = c then some x.2 else none

def linesTo (c : Conn) (lines : List (Conn × ChatLine)) : List ChatLine :=
  lines.filterMap (lineTo c)

theorem linesTo_cons (c : Conn) (x : Conn × ChatLine) (lines : List (Conn × ChatLine)) :
    linesTo c (x :: lines) = (if c = x.1 then [x.2] else []) ++ linesTo c lines := by
  unfold linesTo
  by_cases hx : c = x.1
  · have hline : lineTo c x = some x.2 := if_pos hx.symm
    rw [List.filterMap_cons_some hline, if_pos hx]
    rfl
  · have hline : lineTo c x = none := if_neg (Ne.symm hx)
    rw [List.filterMap_cons_none hline, if_neg hx]
    rfl

/-- A walk over all chatters has one line for each of them. -/
theorem linesTo_toAll {m : UnorderedMap Conn Chatter}
    (hown : ∀ item ∈ m.entries, item.2.connection = item.1) (c : Conn) (l : ChatLine) :
    linesTo c (toAll m l) = if ((roomOf m).name c).isSome then [l] else [] := by
  have hwalk : linesTo c (toAll m l) = (m.entries.filter fun e => e.1 = c).map fun _ => l := by
    unfold linesTo toAll
    rw [List.filterMap_map, ← List.filterMap_eq_map, List.filterMap_filter]
    apply List.filterMap_congr
    intro item hitem
    simp only [Function.comp_apply, lineTo, hown item hitem, decide_eq_true_eq]
  rw [hwalk, UnorderedMap.walk_meets, roomOf_member]
  rcases m.find c with _ | who <;> rfl

/-- What is sent to a connection is what the room tells it. -/
theorem linesTo_effect (hashing : Hashing Conn Chatter) {m : UnorderedMap Conn Chatter}
    (hown : ∀ item ∈ m.entries, item.2.connection = item.1) {a : ChatAct}
    (ha : (roomOf m).Allows a) (c : Conn) :
    linesTo c (effect hashing m a).2 = (roomOf m).told c a := by
  unfold Room.told
  cases a with
  | enter d =>
    simp only [effect, Room.answers, Room.posts, ite_self]
    rfl
  | leave d => exact linesTo_toAll hown c _
  | rename d name id =>
    simp only [effect, Room.answers, Room.posts]
    by_cases hused : usedIn m name = true
    · have hused' := (usedIn_iff m name).mp hused
      rw [if_pos hused, if_pos hused', if_pos hused', ite_self, List.append_nil, linesTo_cons]
      exact List.append_nil _
    · have hused' : ¬ (roomOf m).Used name := fun hu => hused ((usedIn_iff m name).mpr hu)
      have hown' : ∀ item ∈ (renamed m d name).entries, item.2.connection = item.1 := by
        intro item hitem
        obtain ⟨old, hold, rfl⟩ := List.mem_map.mp hitem
        unfold UnorderedMap.modifyEntry
        split <;> exact hown old hold
      have hsame : ((roomOf (renamed m d name)).name c).isSome = ((roomOf m).name c).isSome := by
        rw [roomOf_member, roomOf_member, renamed, UnorderedMap.find_modify]
        split
        · rw [Option.isSome_map]
        · rfl
      rw [if_neg hused, if_neg hused', if_neg hused', linesTo_cons, linesTo_toAll hown', hsame]
  | say d words => exact linesTo_toAll hown c _
  | mistake d reason id =>
    simp only [effect, Room.answers, Room.posts, ite_self, List.append_nil]
    rw [linesTo_cons]
    exact List.append_nil _

/-! ## The sends for one connection -/

def toConn (c : Conn) : Event → Bool
  | .send d _ _ => d = c
  | _ => false

/-- The calls that send to a connection, oldest first. -/
def sendsTo (c : Conn) (out : List Event) : List Event := out.filter (toConn c)

@[simp] theorem sendsTo_append (c : Conn) (o o' : List Event) :
    sendsTo c (o ++ o') = sendsTo c o ++ sendsTo c o' := by
  simp [sendsTo]

theorem sendsTo_sends (c : Conn) (out : List Event) : sendsTo c (sends out) = sendsTo c out := by
  unfold sendsTo sends
  rw [List.filter_filter]
  apply List.filter_congr
  intro e _
  cases e <;> simp [toConn, isSend]

/-- What is sent to a connection is one message for each line. When `full` holds, it is the
frame of the line. -/
def Hears (full : Prop) (c : Conn) (lines : List ChatLine) (out : List Event) : Prop :=
  List.Forall₂ (fun line e => ∃ object message, e = .send c object message ∧
    (full → object = some (lineFrame line) ∧ message.isSome)) lines (sendsTo c out)

theorem Hears.append {full : Prop} {c : Conn} {l l' : List ChatLine} {o o' : List Event}
    (h : Hears full c l o) (h' : Hears full c l' o') : Hears full c (l ++ l') (o ++ o') := by
  unfold Hears at h h' ⊢
  rw [sendsTo_append]
  exact List.rel_append h h'

theorem Hears.weaken {full full' : Prop} {c : Conn} {l : List ChatLine} {o : List Event}
    (h : Hears full c l o) (hfull : full' → full) : Hears full' c l o := by
  refine List.Forall₂.imp ?_ h
  rintro line e ⟨object, message, he, hx⟩
  exact ⟨object, message, he, fun hf => hx (hfull hf)⟩

/-- Of all that is said, each connection gets its own lines. -/
theorem SaysAll.hears {full : Prop} {lines : List (Conn × ChatLine)} {out : List Event}
    (h : SaysAll full lines out) (c : Conn) : Hears full c (linesTo c lines) out := by
  unfold SaysAll at h
  unfold Hears
  rw [← sendsTo_sends]
  generalize sends out = events at h
  induction h with
  | nil => exact .nil
  | @cons x e lines events hx _ ih =>
    obtain ⟨object, message, rfl, hfull⟩ := hx
    by_cases hc : x.1 = c
    · have hsend : sendsTo c (.send x.1 object message :: events) =
          .send x.1 object message :: sendsTo c events :=
        List.filter_cons_of_pos (by simpa [toConn])
      rw [linesTo_cons, if_pos hc.symm, hsend]
      exact .cons ⟨object, message, by rw [hc], hfull⟩ ih
    · have hsend : sendsTo c (.send x.1 object message :: events) = sendsTo c events :=
        List.filter_cons_of_neg (by simpa [toConn])
      rw [linesTo_cons, if_neg (Ne.symm hc), hsend]
      exact ih

/-- The frames of what is heard. -/
theorem Hears.frames {full : Prop} {c : Conn} {lines : List ChatLine} {out : List Event}
    (h : Hears full c lines out) (hfull : full) : framesTo c out = lines.map lineFrame := by
  have hsends : framesTo c out = framesTo c (sendsTo c out) := by
    unfold framesTo sendsTo
    rw [List.filterMap_filter]
    apply List.filterMap_congr
    intro e _
    unfold toConn frameFor
    split
    · split
      · simp_all
      · simp_all
    · simp
  rw [hsends]
  unfold Hears at h
  generalize sendsTo c out = events at h
  induction h with
  | nil => rfl
  | @cons line e lines events hx _ ih =>
    obtain ⟨object, message, rfl, hx⟩ := hx
    obtain ⟨rfl, hmessage⟩ := hx hfull
    obtain ⟨m, rfl⟩ := Option.isSome_iff_exists.mp hmessage
    have hframe : frameFor c (.send c (some (lineFrame line)) (some m)) = some (lineFrame line) :=
      if_pos rfl
    unfold framesTo at ih ⊢
    rw [List.filterMap_cons_some hframe, ih]
    rfl

/-! ## Texts that can be sent -/

mutual

/-- All texts of a value but for the keys of its members. -/
def textsIn : Json → List Bytes
  | .string t => [t]
  | .array vs => textsInList vs
  | .object ms => textsInMembers ms
  | _ => []

def textsInList : List Json → List Bytes
  | [] => []
  | v :: vs => textsIn v ++ textsInList vs

def textsInMembers : List (String × Json) → List Bytes
  | [] => []
  | (_, v) :: ms => textsIn v ++ textsInMembers ms

end

theorem textsIn_get {key : String} {ms : List (String × Json)} {v : Json}
    (h : ms.lookup key = some v) : ∀ t ∈ textsIn v, t ∈ textsInMembers ms := by
  induction ms with
  | nil => cases h
  | cons m ms ih =>
    obtain ⟨k, u⟩ := m
    intro t ht
    rw [textsInMembers, List.mem_append]
    rw [List.lookup_cons] at h
    rcases hk : key == k with _ | _
    · rw [hk] at h
      exact .inr (ih h t ht)
    · rw [hk] at h
      cases h
      exact .inl ht

/-- What the JSON library says of texts: ASCII is UTF-8, and so is each text of a value that was
loaded, up to its first NUL. -/
structure ReadsUtf8 (lib : JsonLib) : Prop where
  ascii : ∀ t, (t.all fun b => b < 128) = true → lib.utf8 t = true
  loaded : ∀ buffer v, lib.loads buffer = some v → ∀ t ∈ textsIn v, lib.utf8 (cString t) = true

/-- The texts that an act brings. -/
def actTexts : ChatAct → List Bytes
  | .rename _ name _ => [name]
  | .say _ words => [words]
  | .mistake _ reason _ => [reason]
  | _ => []

theorem firstText_texts {v : Json} {t : Bytes} (h : firstText v = some t) :
    ∃ u ∈ textsIn v, t = cString u := by
  unfold firstText at h
  split at h
  · rename_i u vs
    exact ⟨u, by rw [textsIn, textsInList, textsIn]; exact List.mem_cons_self,
      (Option.some.inj h).symm⟩
  · cases h

theorem callAct_texts {lib : JsonLib} (hlib : ReadsUtf8 lib) {buffer : Bytes} {c : Conn}
    {call : Call}
    (hcall : callIn lib buffer = some call) {a : ChatAct} (ha : callAct c call = some a) :
    ∀ t ∈ actTexts a, lib.utf8 t = true := by
  have hfirst : ∀ t, firstText call.params = some t → lib.utf8 t = true := by
    intro t ht
    obtain ⟨v, hload, hof⟩ := Option.bind_eq_some_iff.mp hcall
    obtain ⟨u, hu, rfl⟩ := firstText_texts ht
    obtain ⟨method, _, hof⟩ := Option.bind_eq_some_iff.mp hof
    obtain ⟨params, hparams, hof⟩ := Option.bind_eq_some_iff.mp hof
    cases hof
    have hget : v.get "params" = some params := (Option.filter_eq_some_iff.mp hparams).1
    unfold Json.get at hget
    split at hget
    · rename_i ms
      exact hlib.loaded buffer _ hload u (by rw [textsIn]; exact textsIn_get hget u hu)
    · cases hget
  unfold callAct at ha
  split at ha
  · cases ha
    unfold requestAct
    split
    · split
      · rename_i name hname
        intro t ht
        rw [List.mem_singleton.mp ht]
        exact hfirst name hname
      · intro t ht
        rw [List.mem_singleton.mp ht]
        exact hlib.ascii _ (by decide)
    · intro t ht
      rw [List.mem_singleton.mp ht]
      exact hlib.ascii _ (by decide)
  · unfold noticeAct at ha
    split at ha
    · obtain ⟨words, hwords, rfl⟩ := Option.map_eq_some_iff.mp ha
      intro t ht
      rw [List.mem_singleton.mp ht]
      exact hfirst words hwords
    · cases ha

theorem actOf_texts {lib : JsonLib} (hlib : ReadsUtf8 lib) {i : Input Statics} {a : ChatAct}
    (ha : actOf lib i = some a) : ∀ t ∈ actTexts a, lib.utf8 t = true := by
  unfold actOf at ha
  split at ha
  · cases ha
    intro t ht
    cases ht
  · cases ha
    intro t ht
    cases ht
  · obtain ⟨call, hcall, ha⟩ := Option.bind_eq_some_iff.mp ha
    exact callAct_texts hlib hcall ha
  · cases ha

/-- The names of all chatters can be sent. -/
def NamesOk (lib : JsonLib) (m : UnorderedMap Conn Chatter) : Prop :=
  ∀ c who, m.find c = some who → lib.utf8 who.name = true

theorem nameIn_ok {lib : JsonLib} (hlib : ReadsUtf8 lib) {m : UnorderedMap Conn Chatter}
    (hm : NamesOk lib m) (c : Conn) : lib.utf8 (nameIn m c) = true := by
  unfold nameIn
  rcases hc : m.find c with _ | who
  · exact hlib.ascii _ rfl
  · exact hm c who hc

/-- An act keeps the names, and all its lines can be sent. -/
theorem effect_texts (hashing : Hashing Conn Chatter) {lib : JsonLib} (hlib : ReadsUtf8 lib)
    {m : UnorderedMap Conn Chatter} (hm : NamesOk lib m) {a : ChatAct}
    (hallow : (roomOf m).Allows a)
    (ha : ∀ t ∈ actTexts a, lib.utf8 t = true) :
    NamesOk lib (effect hashing m a).1 ∧
      ∀ x ∈ (effect hashing m a).2, TextsOk lib x.2 := by
  have hword : ∀ s : Bytes, (s.all fun b => b < 128) = true → lib.utf8 s = true := hlib.ascii
  -- a walk has one line
  have hwalk : ∀ (m' : UnorderedMap Conn Chatter) (l : ChatLine), TextsOk lib l →
      ∀ x ∈ toAll m' l, TextsOk lib x.2 := by
    intro m' l hl x hx
    obtain ⟨item, _, rfl⟩ := List.mem_map.mp hx
    exact hl
  cases a with
  | enter c =>
    refine ⟨fun d who hd => ?_, fun x hx => by cases hx⟩
    rw [effect, UnorderedMap.find_insert hashing _ (Option.map_eq_none_iff.mp hallow)] at hd
    split at hd
    · cases hd
      exact hword [] rfl
    · exact hm d who hd
  | leave c =>
    refine ⟨fun d who hd => ?_, hwalk m _ ?_⟩
    · rw [effect, UnorderedMap.find_erase] at hd
      split at hd
      · cases hd
      · exact hm d who hd
    · intro t ht
      simp only [lineTexts, List.mem_cons, List.not_mem_nil, or_false] at ht
      rcases ht with rfl | rfl | rfl
      · exact hword _ (by decide)
      · exact hword _ (by decide)
      · exact nameIn_ok hlib hm c
  | rename c name id =>
    have hname : lib.utf8 name = true := ha name List.mem_cons_self
    dsimp only [effect]
    split
    · refine ⟨hm, fun x hx => ?_⟩
      rw [List.mem_singleton.mp hx]
      intro t ht
      rw [List.mem_singleton.mp ht]
      exact hword _ (by decide)
    · refine ⟨fun d who hd => ?_, fun x hx => ?_⟩
      · rw [renamed, UnorderedMap.find_modify] at hd
        split at hd
        · obtain ⟨old, _, rfl⟩ := Option.map_eq_some_iff.mp hd
          exact hname
        · exact hm d who hd
      · rcases List.mem_cons.mp hx with rfl | hx
        · intro t ht
          rw [List.mem_singleton.mp ht]
          exact hname
        · refine hwalk _ _ ?_ x hx
          intro t ht
          simp only [lineTexts, List.mem_cons, List.not_mem_nil, or_false] at ht
          rcases ht with rfl | rfl | rfl
          · exact hword _ (by decide)
          · exact hword _ (by decide)
          · exact hname
  | say c words =>
    refine ⟨hm, hwalk m _ ?_⟩
    intro t ht
    simp only [lineTexts, List.mem_cons, List.not_mem_nil, or_false] at ht
    rcases ht with rfl | rfl | rfl
    · exact hword _ (by decide)
    · exact nameIn_ok hlib hm c
    · exact ha _ List.mem_cons_self
  | mistake c reason id =>
    refine ⟨hm, fun x hx => ?_⟩
    rw [List.mem_singleton.mp hx]
    exact ha

/-! ## Runs -/

/-- The acts of a run. -/
def acts (lib : JsonLib) (is : List (Input Statics)) : List ChatAct := is.filterMap (actOf lib)

/-- No allocation fails, and all texts can be sent. -/
structure Full (lib : JsonLib) (w : World Statics) : Prop where
  plenty : NoneFails w
  reads : ReadsUtf8 lib
  names : NamesOk lib w.user.chatters

/-- What a run of the chat server did, as acts in the room. -/
structure Chats (env : Env Statics) (w : World Statics) (is : List (Input Statics))
    (w' : World Statics) (out : List Event) : Prop where
  chatting : Chatting env w'
  room : roomOf w'.user.chatters = (roomOf w.user.chatters).after (acts env.platform.lib is)
  allowed : (roomOf w.user.chatters).AllowsAll (acts env.platform.lib is)
  hears : ∀ c, Hears (Full env.platform.lib w) c
    (Room.hears c (roomOf w.user.chatters) (acts env.platform.lib is)) out
  full : Full env.platform.lib w → Full env.platform.lib w'

theorem Chats.append {env : Env Statics} {w w1 w2 : World Statics} {is js : List (Input Statics)}
    {o o' : List Event} (h : Chats env w is w1 o) (h' : Chats env w1 js w2 o') :
    Chats env w (is ++ js) w2 (o ++ o') := by
  have hacts : acts env.platform.lib (is ++ js) =
      acts env.platform.lib is ++ acts env.platform.lib js := List.filterMap_append
  refine ⟨h'.chatting, ?_, ?_, fun c => ?_, fun hw => h'.full (h.full hw)⟩
  · rw [hacts, Room.after_append, ← h.room, h'.room]
  · rw [hacts, Room.allowsAll_append, ← h.room]
    exact ⟨h.allowed, h'.allowed⟩
  · rw [hacts, Room.hears_append, ← h.room]
    exact (h.hears c).append ((h'.hears c).weaken h.full)

variable {env : Env Statics} {hashing : Hashing Conn Chatter}

/-- What comes is allowed in the room: libwebsockets establishes only what is fresh, and the
other acts come from open connections. -/
theorem act_allowed {w : World Statics} (h : Chatting (chatServer hashing env) w) {cb : Callback}
    (hd : Deliverable (chatServer hashing env) w cb) {a : ChatAct}
    (ha : actOf env.platform.lib (.callback cb) = some a) : (roomOf w.user.chatters).Allows a := by
  have hopen : ∀ c, w.phase c = .established → ((roomOf w.user.chatters).name c).isSome := by
    intro c hc
    rw [roomOf_member]
    exact (h.present.opened c).mpr hc
  unfold actOf at ha
  split at ha
  · rename_i hcb
    cases hcb
    cases ha
    have hfresh : w.phase _ = .fresh := hd.2.1
    show Option.map _ _ = none
    rw [Option.map_eq_none_iff, ← Option.not_isSome_iff_eq_none, h.present.opened, hfresh]
    intro hn
    cases hn
  · rename_i hcb
    cases hcb
    cases ha
    exact hopen _ hd.2.1
  · rename_i hcb
    cases hcb
    obtain ⟨call, _, ha⟩ := Option.bind_eq_some_iff.mp ha
    have hc := hopen _ hd.2.1
    cases callAct_kind ha with
    | rename name id => exact hc
    | say words => exact hc
    | mistake reason id => exact hc
  · cases ha

theorem acts_one (lib : JsonLib) (i : Input Statics) : acts lib [i] = (actOf lib i).toList := by
  unfold acts
  rcases hact : actOf lib i with _ | a
  · rw [List.filterMap_cons_none hact]
    rfl
  · rw [List.filterMap_cons_some hact]
    rfl

/-- What a callback does to the map is what its act, if it is one, does to the room. -/
theorem effects_chat (hashing : Hashing Conn Chatter) {m : UnorderedMap Conn Chatter}
    (hown : ∀ item ∈ m.entries, item.2.connection = item.1) {o : Option ChatAct}
    (ho : ∀ a, o = some a → (roomOf m).Allows a) :
    roomOf (effects hashing m o).1 = (roomOf m).after o.toList ∧ (roomOf m).AllowsAll o.toList ∧
      ∀ c, linesTo c (effects hashing m o).2 = Room.hears c (roomOf m) o.toList := by
  rcases o with _ | a
  · exact ⟨rfl, trivial, fun _ => rfl⟩
  · have hallow := ho a rfl
    refine ⟨roomOf_effect hashing hallow, ⟨hallow, trivial⟩, fun c => ?_⟩
    exact (linesTo_effect hashing hown hallow c).trans (List.append_nil _).symm

theorem step_chats {w w' : World Statics} (h : Chatting (chatServer hashing env) w) {cb : Callback}
    {out : List Event} (hs : step (chatServer hashing env) w (.callback cb) = .ok (w', out)) :
    Chats (chatServer hashing env) w [.callback cb] w' out := by
  have hd := deliverable_of_step hs
  obtain ⟨w1, o, hs', hstep⟩ := callback_chats h hd
  rw [hs] at hs'
  cases hs'
  have hallow : ∀ a, actOf env.platform.lib (.callback cb) = some a →
      (roomOf w.user.chatters).Allows a := fun a ha => act_allowed h hd ha
  obtain ⟨hroom, hallowed, hlines⟩ := effects_chat hashing h.present.sound.own hallow
  have htexts : Full env.platform.lib w →
      NamesOk env.platform.lib (effects hashing w.user.chatters
          (actOf env.platform.lib (.callback cb))).1 ∧
        ∀ x ∈ (effects hashing w.user.chatters (actOf env.platform.lib (.callback cb))).2,
          TextsOk env.platform.lib x.2 := by
    intro hw
    rcases hact : actOf env.platform.lib (.callback cb) with _ | a
    · exact ⟨hw.names, fun x hx => (by cases hx)⟩
    · exact effect_texts hashing hw.reads hw.names (hallow a hact) (actOf_texts hw.reads hact)
  refine ⟨hstep.chatting, ?_, ?_, fun c => ?_, fun hw => ⟨hstep.plenty hw.plenty, hw.reads, ?_⟩⟩
  · rw [acts_one, hstep.chatters]
    exact hroom
  · rw [acts_one]
    exact hallowed
  · rw [acts_one]
    have hline := (hstep.spoken.hears c).weaken fun hf => ⟨Full.plenty hf, (htexts hf).2⟩
    rw [show linesTo c (effects hashing w.user.chatters
      (actOf (chatServer hashing env).platform.lib (.callback cb))).2 = _ from hlines c] at hline
    exact hline
  · rw [hstep.chatters]
    exact (htexts hw).1

/-- Each run of callbacks is a run in the room. -/
theorem run_chats {w w' : World Statics} (h : Chatting (chatServer hashing env) w)
    {cbs : List Callback} {out : List Event}
    (hr : run (step (chatServer hashing env)) w (cbs.map .callback) = .ok (w', out)) :
    Chats (chatServer hashing env) w (cbs.map .callback) w' out := by
  induction cbs generalizing w out with
  | nil =>
    cases hr
    exact ⟨h, rfl, trivial, fun _ => .nil, fun hw => hw⟩
  | cons cb cbs ih =>
    obtain ⟨w1, o, o', hs, hrest, rfl⟩ := run_cons_ok.mp hr
    have hfirst := step_chats h hs
    exact hfirst.append (ih hfirst.chatting hrest)

/-- A run from the start. -/
theorem start_chats {oom fails : Nat → Bool} {cbs : List Callback} {w : World Statics}
    {hist : List Event} (hr : run (step (chatServer hashing env)) (chatStart oom fails)
      (cbs.map .callback) = .ok (w, hist)) :
    Chats (chatServer hashing env) (chatStart oom fails) (cbs.map .callback) w hist :=
  run_chats (chatting_start _ oom fails) hr

/-- The room was empty at the start. -/
theorem roomOf_start (oom fails : Nat → Bool) :
    roomOf (chatStart oom fails).user.chatters = .empty := rfl

theorem full_start {lib : JsonLib} (hlib : ReadsUtf8 lib) {oom fails : Nat → Bool}
    (hoom : ∀ n, oom n = false) (hfails : ∀ n, fails n = false) :
    Full lib (chatStart oom fails) :=
  ⟨⟨hoom, hfails⟩, hlib, fun c who hc => (by cases hc)⟩

end jrpc.chatserver

-- The objects that are sent, as they are read: each has its two members, up to those that
-- could not be made or inserted.
import Jrpc.Build

open heap
open jrpc.json

namespace jrpc.connection

/-! ## The value of the object -/

theorem readFuel_scalar {s : JsonStore} {x n : Nat} {node : JsonNode} {v : Json}
    (hx : s.nodes.cells x = some ⟨1, node⟩) (hv : scalar node = some v) (hn : 0 < n) :
    s.readFuel n (.node x) = some v := by
  obtain ⟨k, rfl⟩ : ∃ k, n = k + 1 := ⟨n - 1, by omega⟩
  rw [readFuel_node, hx]
  cases node <;> simp_all [scalar]

/-- The value of a member, as it is read in a store. -/
def Part.Shows (s : JsonStore) (n : Nat) (v : Json) : Part → Prop
  | .leaf _ node => scalar node = some v
  | .given value => ∃ r, value = some r ∧ s.readFuel n r = some v

theorem Part.Is.shows {a n : Nat} {s : JsonStore} {r : JsonRef} {part : Part} {v : Json}
    (h : part.Is a s r) (hfit : part.Fits a) (hn : 0 < n) (hr : s.readFuel n r = some v) :
    part.Shows s n v := by
  cases part with
  | leaf lost node =>
    obtain ⟨x, _, rfl, hcell⟩ := h
    obtain ⟨v', hv'⟩ := hfit
    rw [readFuel_scalar hcell hv' hn] at hr
    cases hr
    exact hv'
  | given value => exact ⟨r, h, hr⟩

theorem Part.Is.mono {a : Nat} {s t : JsonStore} {r : JsonRef} {part : Part}
    (h : part.Is a s r)
    (ht : ∀ b, a ≤ b → ∀ c, s.nodes.cells b = some c → t.nodes.cells b = some c) :
    part.Is a t r := by
  cases part with
  | leaf lost node =>
    obtain ⟨x, hx, hr, hcell⟩ := h
    exact ⟨x, hx, hr, ht x (Nat.le_of_lt hx) _ hcell⟩
  | given value => exact h

/-- A member that may be missing, as it is read. -/
theorem readMember {s : JsonStore} {n : Nat} {ok : Bool} {key : String} {r : JsonRef}
    {vs : List (String × Json)}
    (h : List.Forall₂ (fun m p => p.1 = m.1 ∧ s.readFuel n m.2 = some p.2)
      (if ok then [(key, r)] else []) vs) :
    ∃ v : Option Json, v.isSome = ok ∧ vs = (v.map fun x => (key, x)).toList ∧
      ∀ x, v = some x → ok = true ∧ s.readFuel n r = some x := by
  cases ok with
  | false =>
    cases h
    exact ⟨none, rfl, rfl, by simp⟩
  | true =>
    obtain _ | ⟨⟨hk, hr⟩, hrest⟩ := h
    cases hrest
    rename_i p
    have hkey : p.1 = key := hk
    refine ⟨some p.2, rfl, ?_, fun x hx => ?_⟩
    · rw [Option.map_some, Option.toList_some, ← hkey]
    · cases hx
      exact ⟨rfl, hr⟩

/-- The object reads as its members, in their order, in every store that still has it. -/
theorem buildPair_read {s t : JsonStore} (hs : Fenced s.nodes.next s) {key1 key2 : String}
    {part1 part2 : Part} (hfit1 : part1.Fits s.nodes.next) (hfit2 : part2.Fits s.nodes.next)
    (hkeys : key2 ≠ key1) (oom1 oom2 : Bool)
    (ht : ∀ b, s.nodes.next ≤ b → ∀ c,
      (buildPair false oom1 oom2 key1 part1 key2 part2 s).1.nodes.cells b = some c →
        t.nodes.cells b = some c)
    {n : Nat} (hn : 0 < n) {v : Json}
    (hv : t.readFuel (n + 1) (.node s.nodes.next) = some v) :
    ∃ v1 v2 : Option Json, v1.isSome = (part1.made && !oom1) ∧
      v2.isSome = (part2.made && !oom2) ∧
      v = .object ((v1.map fun x => (key1, x)).toList ++ (v2.map fun x => (key2, x)).toList) ∧
      (∀ x, v1 = some x → part1.Shows t n x) ∧ ∀ x, v2 = some x → part2.Shows t n x := by
  obtain ⟨_, r1, r2, hu, his1, his2, _⟩ := buildPair_spec hs hfit1 hfit2 hkeys oom1 oom2
  obtain ⟨vs, rfl, hvs⟩ := readFuel_object (ht _ (Nat.le_refl _) _ hu.cell) hv
  have hflip := hvs.flip
  have htake := (List.forall₂_take_append _ _ _ hflip).flip
  have hdrop := (List.forall₂_drop_append _ _ _ hflip).flip
  obtain ⟨v1, hs1, he1, hr1⟩ := readMember htake
  obtain ⟨v2, hs2, he2, hr2⟩ := readMember hdrop
  refine ⟨v1, v2, hs1, hs2, ?_, fun x hx => ?_, fun x hx => ?_⟩
  · rw [← he1, ← he2, List.take_append_drop]
  · obtain ⟨hok, hr⟩ := hr1 x hx
    exact ((his1 hok).mono ht).shows hfit1 hn hr
  · obtain ⟨hok, hr⟩ := hr2 x hx
    exact ((his2 hok).mono ht).shows hfit2 hn hr

/-- A member that was readable before the object was built is readable in it. -/
theorem Part.Is.reads {a : Nat} {s t : JsonStore} {r : JsonRef} {part : Part} {v : Json}
    (h : part.Is a t r) (hext : Extends s t) (hlt : s.nodes.next < t.nodes.next)
    (hv : part.Shows s (s.nodes.next + 1) v) : t.readFuel t.nodes.next r = some v := by
  cases part with
  | leaf lost node =>
    obtain ⟨x, _, rfl, hx⟩ := h
    exact readFuel_scalar hx hv (Nat.zero_lt_of_lt hlt)
  | given value =>
    obtain ⟨r', hr', hread⟩ := hv
    have hr : value = some r := h
    rw [hr'] at hr
    cases hr
    exact readFuel_mono hext hlt hread

/-- With both members made and inserted, the object reads as both of them. -/
theorem buildPair_reads {s : JsonStore} (hs : Fenced s.nodes.next s) {key1 key2 : String}
    {part1 part2 : Part} (hfit1 : part1.Fits s.nodes.next) (hfit2 : part2.Fits s.nodes.next)
    (hkeys : key2 ≠ key1) (hmade1 : part1.made = true) (hmade2 : part2.made = true) {v1 v2 : Json}
    (hv1 : part1.Shows s (s.nodes.next + 1) v1) (hv2 : part2.Shows s (s.nodes.next + 1) v2) :
    (buildPair false false false key1 part1 key2 part2 s).1.read (.node s.nodes.next) =
      some (.object [(key1, v1), (key2, v2)]) := by
  obtain ⟨_, r1, r2, hu, his1, his2, hkept⟩ := buildPair_spec hs hfit1 hfit2 hkeys false false
  generalize (buildPair false false false key1 part1 key2 part2 s).1 = t at *
  rw [hmade1] at his1
  rw [hmade2] at his2
  rw [hmade1, hmade2] at hu
  have hkept1 : part1.Kept (!false) := by
    cases part1 with
    | leaf lost node => trivial
    | given value => exact fun _ => rfl
  have hkept2 : part2.Kept (!false) := by
    cases part2 with
    | leaf lost node => trivial
    | given value => exact fun _ => rfl
  have hext : Extends s t := by
    intro b c hc
    refine ⟨c.refcount, ?_⟩
    rw [hkept hkept1 hkept2 b (Arena.lt_next_of_cell hc), hc]
  have hlt := Arena.lt_next_of_cell hu.cell
  have hread1 := (his1 rfl).reads hext hlt hv1
  have hread2 := (his2 rfl).reads hext hlt hv2
  have hcell : t.nodes.cells s.nodes.next = some ⟨1, .object [(key1, r1), (key2, r2)]⟩ := hu.cell
  unfold JsonStore.read
  rw [readFuel_node, hcell]
  simp [hread1, hread2]

/-! ## The three objects -/

/-- The members of an object with two keys, each of which may be missing. -/
def twoMembers (key1 : String) (v1 : Option Json) (key2 : String) (v2 : Option Json) : Json :=
  .object ((v1.map fun x => (key1, x)).toList ++ (v2.map fun x => (key2, x)).toList)

/-- A value that was there before the object reads in the object as it did before, when no
given value was lost. -/
theorem given_reads {s : JsonStore} (hs : Fenced s.nodes.next s) {key1 key2 : String}
    {part1 part2 : Part} (hfit1 : part1.Fits s.nodes.next) (hfit2 : part2.Fits s.nodes.next)
    (hkeys : key2 ≠ key1) {oom1 oom2 : Bool} (hk1 : part1.Kept (!oom1))
    (hk2 : part2.Kept (!oom2)) {r : JsonRef} {x y : Json} (hy : s.read r = some y)
    (hx : (buildPair false oom1 oom2 key1 part1 key2 part2 s).1.readFuel
      (buildPair false oom1 oom2 key1 part1 key2 part2 s).1.nodes.next r = some x) : x = y := by
  obtain ⟨_, _, _, hu, _, _, hkept⟩ := buildPair_spec hs hfit1 hfit2 hkeys oom1 oom2
  have hext : Extends s (buildPair false oom1 oom2 key1 part1 key2 part2 s).1 := by
    intro b c hc
    refine ⟨c.refcount, ?_⟩
    rw [hkept hk1 hk2 b (Arena.lt_next_of_cell hc), hc]
  have hle := Arena.lt_next_of_cell hu.cell
  have hmono := readFuel_mono hext hle hy
  rw [hmono] at hx
  exact (Option.some.inj hx).symm

theorem responseObject_read {oom : Nat → Bool} {result : Option JsonRef} {id : Int32}
    {s : JsonStore} (hs : Fenced s.nodes.next s)
    (hr : ∀ r, result = some r → Below s.nodes.next r) {v : Json}
    (hv : ((responseObject oom result id s).2.bind (responseObject oom result id s).1.read) =
      some v) :
    oom 0 = false ∧ ∃ v1 v2, v = twoMembers "result" v1 "id" v2 ∧
      v1.isSome = (result.isSome && !oom 1) ∧ v2.isSome = (!oom 2 && !oom 3) ∧
      (∀ x y, v1 = some x → result.bind s.read = some y → x = y) ∧
      ∀ x, v2 = some x → x = .integer id.toInt64 := by
  rw [responseObject_eq] at hv
  rcases h0 : oom 0 with _ | _
  · have hfit1 : (Part.given result).Fits s.nodes.next := hr
    have hfit2 : (Part.leaf (oom 2) (.integer id.toInt64)).Fits s.nodes.next := ⟨_, rfl⟩
    rw [h0] at hv
    obtain ⟨hobj, _, _, hu, _⟩ := buildPair_spec hs hfit1 hfit2 (by decide : "id" ≠ "result")
      (oom 1) (oom 3)
    have hn := Nat.zero_lt_of_lt (Arena.lt_next_of_cell hu.cell)
    rw [hobj] at hv
    obtain ⟨v1, v2, hs1, hs2, he, hv1, hv2⟩ := buildPair_read hs hfit1 hfit2
      (by decide : "id" ≠ "result") (oom 1) (oom 3) (fun _ _ _ hc => hc) hn hv
    refine ⟨rfl, v1, v2, he, hs1, hs2, fun x y hx hy => ?_, fun x hx => ?_⟩
    · obtain ⟨r, rfl, hread⟩ := hv1 x hx
      rw [hx] at hs1
      have hk1 : (Part.given (some r)).Kept (!oom 1) :=
        fun _ => (Bool.and_eq_true_iff.mp hs1.symm).2
      exact given_reads hs hfit1 hfit2 (by decide : "id" ≠ "result") hk1 trivial hy hread
    · have hid := hv2 x hx
      cases hid
      rfl
  · rw [h0] at hv
    cases hv

/-- When every call of the library succeeds, the response is complete. -/
theorem responseObject_reads {oom : Nat → Bool} {result : JsonRef} {id : Int32} {v : Json}
    {s : JsonStore} (hs : Fenced s.nodes.next s) (hr : Below s.nodes.next result)
    (hv : s.read result = some v) (hoom : ∀ n < 4, oom n = false) :
    (responseObject oom (some result) id s).2.bind
        (responseObject oom (some result) id s).1.read =
      some (.object [("result", v), ("id", .integer id.toInt64)]) := by
  have hfit1 : (Part.given (some result)).Fits s.nodes.next := by
    intro r he
    cases he
    exact hr
  have hfit2 : (Part.leaf (oom 2) (.integer id.toInt64)).Fits s.nodes.next := ⟨_, rfl⟩
  have hmade2 : (Part.leaf (oom 2) (.integer id.toInt64)).made = true := by
    simp [Part.made, hoom 2]
  rw [responseObject_eq, hoom 0 (by omega), hoom 1 (by omega), hoom 3 (by omega)]
  apply buildPair_reads hs hfit1 hfit2 (by decide) rfl hmade2
  · exact ⟨result, rfl, hv⟩
  · rfl

theorem notificationObject_read {lib : JsonLib} {oom : Nat → Bool} {method : Bytes}
    {params : Option JsonRef} {s : JsonStore} (hs : Fenced s.nodes.next s)
    (hp : ∀ r, params = some r → Below s.nodes.next r) {v : Json}
    (hv : ((notificationObject lib oom method params s).2.bind
      (notificationObject lib oom method params s).1.read) = some v) :
    oom 0 = false ∧ ∃ v1 v2, v = twoMembers "method" v1 "params" v2 ∧
      v1.isSome = (!(oom 1 || !lib.utf8 method) && !oom 2) ∧
      v2.isSome = (params.isSome && !oom 3) ∧
      (∀ x, v1 = some x → x = .string method) ∧
      ∀ x y, v2 = some x → params.bind s.read = some y → x = y := by
  rw [notificationObject_eq] at hv
  rcases h0 : oom 0 with _ | _
  · have hfit1 : (Part.leaf (oom 1 || !lib.utf8 method) (.string method)).Fits s.nodes.next :=
      ⟨_, rfl⟩
    have hfit2 : (Part.given params).Fits s.nodes.next := hp
    rw [h0] at hv
    obtain ⟨hobj, _, _, hu, _⟩ := buildPair_spec hs hfit1 hfit2 (by decide : "params" ≠ "method")
      (oom 2) (oom 3)
    have hn := Nat.zero_lt_of_lt (Arena.lt_next_of_cell hu.cell)
    rw [hobj] at hv
    obtain ⟨v1, v2, hs1, hs2, he, hv1, hv2⟩ := buildPair_read hs hfit1 hfit2
      (by decide : "params" ≠ "method") (oom 2) (oom 3) (fun _ _ _ hc => hc) hn hv
    refine ⟨rfl, v1, v2, he, hs1, hs2, fun x hx => ?_, fun x y hx hy => ?_⟩
    · have hmethod := hv1 x hx
      cases hmethod
      rfl
    · obtain ⟨r, rfl, hread⟩ := hv2 x hx
      rw [hx] at hs2
      have hk2 : (Part.given (some r)).Kept (!oom 3) :=
        fun _ => (Bool.and_eq_true_iff.mp hs2.symm).2
      exact given_reads hs hfit1 hfit2 (by decide : "params" ≠ "method") trivial hk2 hy hread
  · rw [h0] at hv
    cases hv

/-- When every call of the library succeeds, the notification is complete. -/
theorem notificationObject_reads {lib : JsonLib} {oom : Nat → Bool} {method : Bytes}
    {params : JsonRef} {v : Json} {s : JsonStore} (hs : Fenced s.nodes.next s)
    (hp : Below s.nodes.next params) (hv : s.read params = some v)
    (hoom : ∀ n < 4, oom n = false) (hutf8 : lib.utf8 method = true) :
    (notificationObject lib oom method (some params) s).2.bind
        (notificationObject lib oom method (some params) s).1.read =
      some (.object [("method", .string method), ("params", v)]) := by
  have hfit1 : (Part.leaf (oom 1 || !lib.utf8 method) (.string method)).Fits s.nodes.next :=
    ⟨_, rfl⟩
  have hfit2 : (Part.given (some params)).Fits s.nodes.next := by
    intro r he
    cases he
    exact hp
  have hmade1 : (Part.leaf (oom 1 || !lib.utf8 method) (.string method)).made = true := by
    simp [Part.made, hoom 1, hutf8]
  rw [notificationObject_eq, hoom 0 (by omega), hoom 2 (by omega), hoom 3 (by omega)]
  apply buildPair_reads hs hfit1 hfit2 (by decide) hmade1 rfl
  · rfl
  · exact ⟨params, rfl, hv⟩

/-- With no object, a new leaf comes and goes. -/
theorem addPart_leaf_none (fails : Bool) (key : String) (lost : Bool) {node : JsonNode}
    (hnode : node.children = []) (s : JsonStore) :
    addPart fails none key (.leaf lost node) s = s := by
  cases lost with
  | true => rfl
  | false => exact json_decref_new hnode

theorem errorHolder_fails {lib : JsonLib} {oom : Nat → Bool} (h : oom 0 = true)
    (error_code : Int32) (error_message : Bytes) (s : JsonStore) :
    errorHolder lib oom error_code error_message s = (s, none) := by
  unfold errorHolder buildPair
  rw [h]
  simp only [json_object, if_true]
  rw [addPart_leaf_none _ _ _ rfl, addPart_leaf_none _ _ _ rfl]

/-- The inner object of an error is older than the outer one. -/
theorem errorHolder_spec (lib : JsonLib) (oom : Nat → Bool) (error_code : Int32)
    (error_message : Bytes) {s : JsonStore} (hs : Fenced s.nodes.next s) :
    Fenced (errorHolder lib oom error_code error_message s).1.nodes.next
        (errorHolder lib oom error_code error_message s).1 ∧
      ∀ r, (errorHolder lib oom error_code error_message s).2 = some r →
        Below (errorHolder lib oom error_code error_message s).1.nodes.next r := by
  rcases h0 : oom 0 with _ | _
  · have hfit1 : (Part.leaf (oom 1) (.integer error_code.toInt64)).Fits s.nodes.next := ⟨_, rfl⟩
    have hfit2 : (Part.leaf (oom 3 || !lib.utf8 error_message)
      (.string error_message)).Fits s.nodes.next := ⟨_, rfl⟩
    unfold errorHolder
    rw [h0]
    obtain ⟨hobj, _, _, hu, _⟩ := buildPair_spec hs hfit1 hfit2 (by decide : "message" ≠ "code")
      (oom 2) (oom 4)
    refine ⟨hu.fenced_next, fun r hr x hx => ?_⟩
    rw [hobj] at hr
    cases hr
    cases hx
    exact Arena.lt_next_of_cell hu.cell
  · rw [errorHolder_fails h0]
    exact ⟨hs, fun r hr => by cases hr⟩

/-- The inner object of an error is there when it could be made. -/
theorem errorHolder_made (lib : JsonLib) (oom : Nat → Bool) (error_code : Int32)
    (error_message : Bytes) (s : JsonStore) :
    (errorHolder lib oom error_code error_message s).2.isSome = !oom 0 := by
  rcases h0 : oom 0 with _ | _
  · unfold errorHolder
    rw [h0]
    rfl
  · rw [errorHolder_fails h0]
    rfl

/-- The inner object of an error reads as its members in every store that still has it. -/
theorem errorHolder_read {lib : JsonLib} {oom : Nat → Bool} {error_code : Int32}
    {error_message : Bytes} {s t : JsonStore} (hs : Fenced s.nodes.next s) {r : JsonRef}
    (hr : (errorHolder lib oom error_code error_message s).2 = some r)
    (ht : ∀ b < (errorHolder lib oom error_code error_message s).1.nodes.next, ∀ c,
      (errorHolder lib oom error_code error_message s).1.nodes.cells b = some c →
        t.nodes.cells b = some c)
    {n : Nat} (hn : (errorHolder lib oom error_code error_message s).1.nodes.next < n) {x : Json}
    (hx : t.readFuel n r = some x) :
    ∃ u1 u2, x = twoMembers "code" u1 "message" u2 ∧ u1.isSome = (!oom 1 && !oom 2) ∧
      u2.isSome = (!(oom 3 || !lib.utf8 error_message) && !oom 4) ∧
      (∀ y, u1 = some y → y = .integer error_code.toInt64) ∧
      ∀ y, u2 = some y → y = .string error_message := by
  have h0 : oom 0 = false := by
    have hmade := errorHolder_made lib oom error_code error_message s
    rw [hr] at hmade
    simpa using hmade.symm
  have hcode : (Part.leaf (oom 1) (.integer error_code.toInt64)).Fits s.nodes.next := ⟨_, rfl⟩
  have hmessage : (Part.leaf (oom 3 || !lib.utf8 error_message)
    (.string error_message)).Fits s.nodes.next := ⟨_, rfl⟩
  unfold errorHolder at hr ht hn
  rw [h0] at hr ht hn
  obtain ⟨hobj, _, _, hu, _⟩ := buildPair_spec hs hcode hmessage (by decide : "message" ≠ "code")
    (oom 2) (oom 4)
  rw [hobj] at hr
  cases hr
  have hlt := Arena.lt_next_of_cell hu.cell
  obtain ⟨k, rfl⟩ := Nat.exists_eq_succ_of_ne_zero (Nat.ne_of_gt (Nat.zero_lt_of_lt hn))
  obtain ⟨u1, u2, hu1, hu2, hx', hy1, hy2⟩ := buildPair_read hs hcode hmessage
    (by decide : "message" ≠ "code") (oom 2) (oom 4)
    (fun b _ c hc => ht b (Arena.lt_next_of_cell hc) c hc) (by omega) hx
  refine ⟨u1, u2, hx', hu1, hu2, fun y hy => ?_, fun y hy => ?_⟩
  · have hvalue := hy1 y hy
    cases hvalue
    rfl
  · have hvalue := hy2 y hy
    cases hvalue
    rfl

theorem errorObject_read {lib : JsonLib} {oom : Nat → Bool} {error_code : Int32}
    {error_message : Bytes} {id : Int32} {s : JsonStore} (hs : Fenced s.nodes.next s) {v : Json}
    (hv : ((errorObject lib oom error_code error_message id s).2.bind
      (errorObject lib oom error_code error_message id s).1.read) = some v) :
    oom 5 = false ∧ ∃ v1 v2, v = twoMembers "error" v1 "id" v2 ∧
      v1.isSome = (!oom 0 && !oom 6) ∧ v2.isSome = (!oom 7 && !oom 8) ∧
      (∀ x, v1 = some x → ∃ u1 u2, x = twoMembers "code" u1 "message" u2 ∧
        u1.isSome = (!oom 1 && !oom 2) ∧
        u2.isSome = (!(oom 3 || !lib.utf8 error_message) && !oom 4) ∧
        (∀ y, u1 = some y → y = .integer error_code.toInt64) ∧
        ∀ y, u2 = some y → y = .string error_message) ∧
      ∀ x, v2 = some x → x = .integer id.toInt64 := by
  rw [errorObject_eq] at hv
  obtain ⟨hs', hbelow⟩ := errorHolder_spec lib oom error_code error_message hs
  have hmade := errorHolder_made lib oom error_code error_message s
  rcases h5 : oom 5 with _ | _
  · have hfit1 : (Part.given (errorHolder lib oom error_code error_message s).2).Fits
        (errorHolder lib oom error_code error_message s).1.nodes.next := hbelow
    have hfit2 : (Part.leaf (oom 7) (.integer id.toInt64)).Fits
        (errorHolder lib oom error_code error_message s).1.nodes.next := ⟨_, rfl⟩
    rw [h5] at hv
    obtain ⟨hobj, _, _, hu, _, _, hkept⟩ := buildPair_spec hs' hfit1 hfit2
      (by decide : "id" ≠ "error") (oom 6) (oom 8)
    have hn := Arena.lt_next_of_cell hu.cell
    rw [hobj] at hv
    obtain ⟨v1, v2, hs1, hs2, he, hv1, hv2⟩ := buildPair_read hs' hfit1 hfit2
      (by decide : "id" ≠ "error") (oom 6) (oom 8) (fun _ _ _ hc => hc)
      (Nat.zero_lt_of_lt hn) hv
    refine ⟨rfl, v1, v2, he, hmade ▸ hs1, hs2, fun x hx => ?_, fun x hx => ?_⟩
    · obtain ⟨r, hr, hread⟩ := hv1 x hx
      have hinserted : (!oom 6) = true := by
        rw [hx] at hs1
        exact (Bool.and_eq_true_iff.mp hs1.symm).2
      -- the inner object is read in the store that holds the outer one too
      apply errorHolder_read hs hr _ hn hread
      intro b hb c hc
      rw [hkept (fun _ => hinserted) trivial b hb]
      exact hc
    · have hid := hv2 x hx
      cases hid
      rfl
  · rw [h5] at hv
    cases hv

/-- When every call of the library succeeds, the error is complete. -/
theorem errorObject_reads {lib : JsonLib} {oom : Nat → Bool} {error_code : Int32}
    {error_message : Bytes} {id : Int32} {s : JsonStore} (hs : Fenced s.nodes.next s)
    (hoom : ∀ n < 9, oom n = false) (hutf8 : lib.utf8 error_message = true) :
    (errorObject lib oom error_code error_message id s).2.bind
        (errorObject lib oom error_code error_message id s).1.read =
      some (.object [("error", .object [("code", .integer error_code.toInt64),
        ("message", .string error_message)]), ("id", .integer id.toInt64)]) := by
  obtain ⟨hs', hbelow⟩ := errorHolder_spec lib oom error_code error_message hs
  have hmade1 : (Part.leaf (oom 1) (.integer error_code.toInt64)).made = true := by
    simp [Part.made, hoom 1]
  have hmade2 : (Part.leaf (oom 3 || !lib.utf8 error_message) (.string error_message)).made =
      true := by
    simp [Part.made, hoom 3, hutf8]
  have hmade3 : (Part.leaf (oom 7) (.integer id.toInt64)).made = true := by
    simp [Part.made, hoom 7]
  have hfit1 : (Part.leaf (oom 1) (.integer error_code.toInt64)).Fits s.nodes.next := ⟨_, rfl⟩
  have hfit2 : (Part.leaf (oom 3 || !lib.utf8 error_message)
    (.string error_message)).Fits s.nodes.next := ⟨_, rfl⟩
  -- the inner object reads in the store in which the outer one is made
  have hinner : (errorHolder lib oom error_code error_message s).2 = some (.node s.nodes.next) ∧
      (errorHolder lib oom error_code error_message s).1.read (.node s.nodes.next) =
        some (.object [("code", .integer error_code.toInt64),
          ("message", .string error_message)]) := by
    unfold errorHolder
    rw [hoom 0 (by omega), hoom 2 (by omega), hoom 4 (by omega)]
    refine ⟨rfl, ?_⟩
    apply buildPair_reads hs hfit1 hfit2 (by decide) hmade1 hmade2
    · rfl
    · rfl
  obtain ⟨hholder, hread⟩ := hinner
  rw [errorObject_eq, hoom 5 (by omega), hoom 6 (by omega), hoom 8 (by omega)]
  generalize errorHolder lib oom error_code error_message s = holder at *
  rw [hholder] at hbelow ⊢
  have hfit3 : (Part.given (some (.node s.nodes.next))).Fits holder.1.nodes.next := hbelow
  have hfit4 : (Part.leaf (oom 7) (.integer id.toInt64)).Fits holder.1.nodes.next := ⟨_, rfl⟩
  apply buildPair_reads hs' hfit3 hfit4 (by decide) rfl hmade3
  · exact ⟨_, rfl, hread⟩
  · rfl

end jrpc.connection

-- An object that is built and given up again. Below the new object lies what user code handed
-- over, and on top of it lie the leaves that were made for it. Giving the object up leaves the
-- store as if only what user code handed over had been given up.
import Jrpc.Objects
import Jrpc.References

open heap
open jrpc.json

namespace jrpc.connection

/-! ## The same turns in a larger store -/

theorem fenced_drop {a : Nat} {s : JsonStore} (h : Fenced a s) (x : Nat) : Fenced a (s.drop x) := by
  intro b hb y hy
  by_cases hbx : b = x
  · subst b
    unfold JsonStore.childrenAt at hy
    rw [drop_cells_self] at hy
    cases hy
  · rw [drop_children_ne hbx] at hy
    exact h b hb y hy

theorem fenced_lower {a : Nat} {s : JsonStore} (h : Fenced a s) (x : Nat) :
    Fenced a (s.lower x) := by
  intro b hb y hy
  rw [lower_children] at hy
  exact h b hb y hy

/-- What a node below the fence holds lies below the fence. -/
theorem Fenced.children {a x : Nat} {s : JsonStore} {c : JsonCell} (h : Fenced a s) (hx : x < a)
    (hc : s.nodes.cells x = some c) : ∀ r ∈ c.node.children, Below a r := by
  rintro r hr y rfl
  apply h x hx y
  rw [childrenAt_eq hc]
  exact hr

theorem giveUp_next_le (rs : List JsonRef) (s : JsonStore) :
    (giveUp rs s).nodes.next ≤ s.nodes.next := by
  apply giveUp_induction (P := fun rs s => (giveUp rs s).nodes.next ≤ s.nodes.next)
  · intro s
    rw [giveUp_nil]
  · intro r rest s hr ih
    rw [giveUp_constant hr]
    exact ih
  · intro x rest s hx ih
    rw [giveUp_gone hx]
    exact ih
  · intro x rest s c hx hc ih
    rw [giveUp_last hx hc]
    exact Nat.le_trans ih (drop_next_le s x)
  · intro x rest s c hx hc ih
    rw [giveUp_shared hx hc]
    exact ih

/-- Two stores that agree below the fence agree there afterwards. -/
theorem giveUp_frame {a : Nat} (rs : List JsonRef) (s : JsonStore) :
    ∀ t : JsonStore, (∀ b < a, t.nodes.cells b = s.nodes.cells b) → t.underflow = s.underflow →
      (∀ r ∈ rs, Below a r) → Fenced a s →
      (∀ b < a, (giveUp rs t).nodes.cells b = (giveUp rs s).nodes.cells b) ∧
        (giveUp rs t).underflow = (giveUp rs s).underflow := by
  apply giveUp_induction (P := fun rs s => ∀ t : JsonStore,
    (∀ b < a, t.nodes.cells b = s.nodes.cells b) → t.underflow = s.underflow →
      (∀ r ∈ rs, Below a r) → Fenced a s →
      (∀ b < a, (giveUp rs t).nodes.cells b = (giveUp rs s).nodes.cells b) ∧
        (giveUp rs t).underflow = (giveUp rs s).underflow)
  · intro s t hsame hu _ _
    rw [giveUp_nil, giveUp_nil]
    exact ⟨hsame, hu⟩
  · intro r rest s hr ih t hsame hu hrs hs
    rw [giveUp_constant hr, giveUp_constant hr]
    exact ih t hsame hu (fun r hr => hrs r (List.mem_cons_of_mem _ hr)) hs
  · intro x rest s hx ih t hsame hu hrs hs
    have hlt : x < a := hrs _ List.mem_cons_self x rfl
    rw [giveUp_gone hx, giveUp_gone ((hsame x hlt).trans hx)]
    exact ih t.overdrawn hsame rfl (fun r hr => hrs r (List.mem_cons_of_mem _ hr)) hs
  · intro x rest s c hx hc ih t hsame hu hrs hs
    have hlt : x < a := hrs _ List.mem_cons_self x rfl
    rw [giveUp_last hx hc, giveUp_last ((hsame x hlt).trans hx) hc]
    apply ih (t.drop x)
    · intro b hb
      by_cases hbx : b = x
      · rw [hbx, drop_cells_self, drop_cells_self]
      · rw [drop_cells_ne hbx, drop_cells_ne hbx, hsame b hb]
    · exact hu
    · intro r hr
      rcases List.mem_append.mp hr with hr | hr
      · exact hs.children hlt hx r hr
      · exact hrs r (List.mem_cons_of_mem _ hr)
    · exact fenced_drop hs x
  · intro x rest s c hx hc ih t hsame hu hrs hs
    have hlt : x < a := hrs _ List.mem_cons_self x rfl
    rw [giveUp_shared hx hc, giveUp_shared ((hsame x hlt).trans hx) hc]
    apply ih (t.lower x)
    · intro b hb
      by_cases hbx : b = x
      · rw [hbx, lower_cells_self, lower_cells_self, hsame x hlt]
      · rw [lower_cells_ne hbx, lower_cells_ne hbx, hsame b hb]
    · exact hu
    · exact fun r hr => hrs r (List.mem_cons_of_mem _ hr)
    · exact fenced_lower hs x

/-! ## Leaves on top of a store -/

/-- The references that go below the fence. -/
def isBelow (a : Nat) : JsonRef → Bool
  | .node x => x < a
  | _ => true

theorem isBelow_iff {a : Nat} {r : JsonRef} : isBelow a r = true ↔ Below a r := by
  cases r with
  | node x => simp [isBelow, Below]
  | _ => simp [isBelow, Below]

/-- The references of a list go below the fence or to leaves above it. The second store is the
first one with just these leaves on top. -/
structure Stacked (a : Nat) (u t : JsonStore) (rs : List JsonRef) : Prop where
  below : ∀ b < a, t.nodes.cells b = u.nodes.cells b
  bounded : u.nodes.next ≤ a
  fenced : Fenced a u
  underflow : t.underflow = u.underflow
  leaves : ∀ x, a ≤ x → .node x ∈ rs →
    ∃ node, t.nodes.cells x = some ⟨1, node⟩ ∧ node.children = []
  tops : ∀ x, a ≤ x → t.nodes.Live x → .node x ∈ rs
  distinct : ∀ x, a ≤ x → rs.count (.node x) ≤ 1

/-- All of it is given up: the leaves are gone, and the rest was given up in the first store. -/
theorem Stacked.giveUp {a : Nat} {u t : JsonStore} {rs : List JsonRef} (h : Stacked a u t rs) :
    giveUp rs t = json.giveUp (rs.filter (isBelow a)) u := by
  induction rs generalizing u t with
  | nil =>
    rw [List.filter_nil, giveUp_nil, giveUp_nil]
    refine store_ext (fun b => ?_) h.underflow
    by_cases hb : b < a
    · exact h.below b hb
    · rw [u.nodes.bounded b (Nat.le_trans h.bounded (Nat.le_of_not_lt hb))]
      by_contra hne
      have hlive : t.nodes.Live b := Option.isSome_iff_ne_none.mpr hne
      cases h.tops b (Nat.le_of_not_lt hb) hlive
  | cons r rest ih =>
    rcases hr : isBelow a r with _ | _
    · -- the first one is a leaf
      obtain ⟨x, rfl⟩ : ∃ x, r = .node x := by
        cases r with
        | node x => exact ⟨x, rfl⟩
        | _ => cases hr
      have hx : a ≤ x := by simpa [isBelow] using hr
      obtain ⟨node, hcell, hleaf⟩ := h.leaves x hx List.mem_cons_self
      have honce : .node x ∉ rest := by
        have hcount := h.distinct x hx
        rw [List.count_cons_self] at hcount
        exact List.count_eq_zero.mp (by omega)
      rw [List.filter_cons_of_neg (by simp [hr]), giveUp_last hcell (Nat.le_refl 1), hleaf,
        List.nil_append]
      apply ih
      refine ⟨?_, h.bounded, h.fenced, h.underflow, ?_, ?_, ?_⟩
      · intro b hb
        rw [drop_cells_ne (by omega)]
        exact h.below b hb
      · intro y hy hmem
        have hyx : y ≠ x := by
          rintro rfl
          exact honce hmem
        rw [drop_cells_ne hyx]
        exact h.leaves y hy (List.mem_cons_of_mem _ hmem)
      · intro y hy hlive
        have hyx : y ≠ x := by
          rintro rfl
          simp [Arena.Live] at hlive
        unfold Arena.Live at hlive
        rw [drop_cells_ne hyx] at hlive
        rcases List.mem_cons.mp (h.tops y hy hlive) with he | hmem
        · exact absurd (JsonRef.node.inj he) hyx
        · exact hmem
      · intro y hy
        exact Nat.le_trans (List.count_le_count_cons) (h.distinct y hy)
    · have hbelow : Below a r := isBelow_iff.mp hr
      have hsingle : ∀ r' ∈ [r], Below a r' := by simpa using hbelow
      obtain ⟨hcells, hunder⟩ := giveUp_frame [r] u t h.below h.underflow hsingle h.fenced
      have hfenced : Fenced a t := h.fenced.congr h.below
      obtain ⟨habove, _⟩ := decrefFuel_below (linksBelow t t.nodes.next + 1) hsingle hfenced
      obtain ⟨_, hfenced'⟩ := decrefFuel_below (linksBelow u u.nodes.next + 1) hsingle h.fenced
      have hne : ∀ x, a ≤ x → r ≠ .node x := by
        rintro x hx rfl
        have hlt := hbelow x rfl
        omega
      rw [List.filter_cons_of_pos hr, giveUp_cons r rest, giveUp_cons r (rest.filter _)]
      apply ih
      refine ⟨hcells, Nat.le_trans (giveUp_next_le _ _) h.bounded, hfenced', hunder, ?_, ?_, ?_⟩
      · intro x hx hmem
        rw [show (json.giveUp [r] t).nodes.cells x = t.nodes.cells x from habove x hx]
        exact h.leaves x hx (List.mem_cons_of_mem _ hmem)
      · intro x hx hlive
        unfold Arena.Live at hlive
        rw [show (json.giveUp [r] t).nodes.cells x = t.nodes.cells x from habove x hx] at hlive
        rcases List.mem_cons.mp (h.tops x hx hlive) with he | hmem
        · exact absurd he.symm (hne x hx)
        · exact hmem
      · intro x hx
        exact Nat.le_trans (List.count_le_count_cons) (h.distinct x hx)

/-! ## An object on top of a store -/

/-- A new object with its members, on top of a store. -/
structure Topped (a : Nat) (u t : JsonStore) (ms : List (String × JsonRef)) : Prop where
  cell : t.nodes.cells a = some ⟨1, .object ms⟩
  stacked : Stacked a u (t.drop a) (ms.map (·.2))

/-- The members that go below the fence. -/
def given (a : Nat) (ms : List (String × JsonRef)) : List JsonRef :=
  (ms.map (·.2)).filter (isBelow a)

/-- Giving the object up gives up what user code handed over, and takes the rest along. -/
theorem Topped.decref {a : Nat} {u t : JsonStore} {ms : List (String × JsonRef)}
    (h : Topped a u t ms) : json_decref (some (.node a)) t = giveUp (given a ms) u := by
  rw [json_decref_eq, Option.toList_some, giveUp_last h.cell (Nat.le_refl 1), List.append_nil]
  exact h.stacked.giveUp

theorem topped_new {s : JsonStore} (hs : Fenced s.nodes.next s) :
    Topped s.nodes.next s (s.new (.object [])).1 [] := by
  have hdrop : ((s.new (.object [])).1.drop s.nodes.next) = s := by
    refine store_ext (fun b => ?_) rfl
    by_cases hb : b = s.nodes.next
    · rw [hb, drop_cells_self, s.nodes.bounded _ (Nat.le_refl _)]
    · rw [drop_cells_ne hb, new_cells_ne hb]
  refine ⟨new_cells_self s _, ?_⟩
  rw [hdrop]
  refine ⟨fun _ _ => rfl, Nat.le_refl _, hs, rfl, ?_, ?_, ?_⟩
  · intro x _ hmem
    cases hmem
  · intro x hx hlive
    obtain ⟨c, hc⟩ := Arena.live_iff.mp hlive
    have hlt := Arena.lt_next_of_cell hc
    omega
  · intro x _
    exact Nat.zero_le 1

/-- The references that user code handed over for a member. -/
def Part.refs : Part → List JsonRef
  | .leaf _ _ => []
  | .given value => value.toList

/-- A value below the fence becomes a member. -/
theorem Topped.insert {a : Nat} {u t : JsonStore} {ms : List (String × JsonRef)}
    (h : Topped a u t ms) {key : String} (hkey : ms.lookup key = none) {v : JsonRef}
    (hv : Below a v) :
    Topped a u (json_object_set_new false (some (.node a)) key (some v) t) (ms ++ [(key, v)]) := by
  have hva : v ≠ .node a := by
    rintro rfl
    exact Nat.lt_irrefl a (hv a rfl)
  rw [object_set_new_inserts h.cell hkey hva]
  generalize ht : ({ t with nodes := t.nodes.modify a fun c =>
    { c with node := .object (ms ++ [(key, v)]) } } : JsonStore) = t'
  have hself : t'.nodes.cells a = some ⟨1, .object (ms ++ [(key, v)])⟩ := by
    rw [← ht]
    show (t.nodes.modify a _).cells a = _
    rw [Pool.modify_toArena, Arena.modify_cells_self, h.cell]
    rfl
  have hdrop : t'.drop a = t.drop a := by
    rw [← ht]
    refine store_ext (fun b => ?_) rfl
    by_cases hb : b = a
    · rw [hb, drop_cells_self, drop_cells_self]
    · rw [drop_cells_ne hb, drop_cells_ne hb]
      exact Arena.modify_cells_ne hb
  refine ⟨hself, ?_⟩
  rw [hdrop, List.map_append]
  have hs := h.stacked
  have hne : ∀ x, a ≤ x → v ≠ .node x := by
    rintro x hx rfl
    have hlt := hv x rfl
    omega
  refine ⟨hs.below, hs.bounded, hs.fenced, hs.underflow, ?_, ?_, ?_⟩
  · intro x hx hmem
    rcases List.mem_append.mp hmem with hmem | hmem
    · exact hs.leaves x hx hmem
    · exact absurd (List.mem_singleton.mp hmem).symm (hne x hx)
  · intro x hx hlive
    exact List.mem_append_left _ (hs.tops x hx hlive)
  · intro x hx
    rw [List.count_append, List.map_cons, List.map_nil, List.count_singleton,
      beq_false_of_ne (hne x hx)]
    exact hs.distinct x hx

/-- A new leaf becomes a member. -/
theorem Topped.insert_leaf {a : Nat} {u t : JsonStore} {ms : List (String × JsonRef)}
    (h : Topped a u t ms) {key : String} (hkey : ms.lookup key = none) {node : JsonNode}
    (hnode : node.children = []) :
    Topped a u (json_object_set_new false (some (.node a)) key (some (t.new node).2)
      (t.new node).1) (ms ++ [(key, .node t.nodes.next)]) := by
  have ha := Arena.lt_next_of_cell h.cell
  have hcell : (t.new node).1.nodes.cells a = some ⟨1, .object ms⟩ := by
    rw [new_cells_ne (Nat.ne_of_lt ha), h.cell]
  have hne : (JsonRef.node t.nodes.next) ≠ .node a := by
    simpa using Nat.ne_of_gt ha
  rw [new_ref, object_set_new_inserts hcell hkey hne]
  generalize ht : ({ (t.new node).1 with nodes := (t.new node).1.nodes.modify a fun c =>
    { c with node := .object (ms ++ [(key, .node t.nodes.next)]) } } : JsonStore) = t'
  have hself : t'.nodes.cells a = some ⟨1, .object (ms ++ [(key, .node t.nodes.next)])⟩ := by
    rw [← ht]
    show ((t.new node).1.nodes.modify a _).cells a = _
    rw [Pool.modify_toArena, Arena.modify_cells_self, hcell]
    rfl
  have hother : ∀ b, b ≠ a → t'.nodes.cells b = (t.new node).1.nodes.cells b := by
    intro b hb
    rw [← ht]
    exact Arena.modify_cells_ne hb
  have hs := h.stacked
  have hold : ∀ b, b ≠ t.nodes.next → (t'.drop a).nodes.cells b = (t.drop a).nodes.cells b := by
    intro b hb
    by_cases hba : b = a
    · rw [hba, drop_cells_self, drop_cells_self]
    · rw [drop_cells_ne hba, drop_cells_ne hba, hother b hba, new_cells_ne hb]
  have hnew : (t'.drop a).nodes.cells t.nodes.next = some ⟨1, node⟩ := by
    rw [drop_cells_ne (Nat.ne_of_gt ha), hother _ (Nat.ne_of_gt ha), new_cells_self]
  have hfresh : .node t.nodes.next ∉ ms.map (·.2) := by
    intro hmem
    obtain ⟨node', hc, _⟩ := hs.leaves _ (Nat.le_of_lt ha) hmem
    rw [drop_cells_ne (Nat.ne_of_gt ha), t.nodes.bounded _ (Nat.le_refl _)] at hc
    cases hc
  refine ⟨hself, ?_⟩
  rw [List.map_append]
  refine ⟨?_, hs.bounded, hs.fenced, ?_, ?_, ?_, ?_⟩
  · intro b hb
    rw [hold b (by omega)]
    exact hs.below b hb
  · rw [← ht]
    exact hs.underflow
  · intro x hx hmem
    by_cases hxn : x = t.nodes.next
    · rw [hxn, hnew]
      exact ⟨node, rfl, hnode⟩
    · rw [hold x hxn]
      rcases List.mem_append.mp hmem with hmem | hmem
      · exact hs.leaves x hx hmem
      · exact absurd (JsonRef.node.inj (List.mem_singleton.mp hmem)) hxn
  · intro x hx hlive
    by_cases hxn : x = t.nodes.next
    · rw [hxn]
      exact List.mem_append_right _ List.mem_cons_self
    · unfold Arena.Live at hlive
      rw [hold x hxn] at hlive
      exact List.mem_append_left _ (hs.tops x hx hlive)
  · intro x hx
    rw [List.count_append, List.map_cons, List.map_nil]
    by_cases hxn : x = t.nodes.next
    · rw [hxn, List.count_eq_zero.mpr hfresh, List.count_singleton_self]
    · rw [List.count_singleton, beq_false_of_ne (by simpa using Ne.symm hxn)]
      exact hs.distinct x hx

/-- A value below the fence that is given up while the object is built. -/
theorem Topped.give_up {a : Nat} {u t : JsonStore} {ms : List (String × JsonRef)}
    (h : Topped a u t ms) {v : JsonRef} (hv : Below a v) :
    Topped a (giveUp [v] u) (giveUp [v] t) ms := by
  have hs := h.stacked
  have hsingle : ∀ r ∈ [v], Below a r := by simpa using hv
  have hbelow : ∀ b < a, t.nodes.cells b = u.nodes.cells b := by
    intro b hb
    rw [← hs.below b hb, drop_cells_ne (Nat.ne_of_lt hb)]
  obtain ⟨hcells, hunder⟩ := giveUp_frame [v] u t hbelow hs.underflow hsingle hs.fenced
  obtain ⟨habove, _⟩ := decrefFuel_below (linksBelow t t.nodes.next + 1) hsingle
    (hs.fenced.congr hbelow)
  obtain ⟨_, hfenced⟩ := decrefFuel_below (linksBelow u u.nodes.next + 1) hsingle hs.fenced
  have hdrop : ∀ b, a ≤ b → ((giveUp [v] t).drop a).nodes.cells b = (t.drop a).nodes.cells b := by
    intro b hb
    by_cases hba : b = a
    · rw [hba, drop_cells_self, drop_cells_self]
    · rw [drop_cells_ne hba, drop_cells_ne hba]
      exact habove b hb
  refine ⟨(habove a (Nat.le_refl a)).trans h.cell, ?_⟩
  refine ⟨?_, Nat.le_trans (giveUp_next_le _ _) hs.bounded, hfenced, hunder, ?_, ?_, hs.distinct⟩
  · intro b hb
    rw [drop_cells_ne (Nat.ne_of_lt hb)]
    exact hcells b hb
  · intro x hx hmem
    rw [hdrop x hx]
    exact hs.leaves x hx hmem
  · intro x hx hlive
    unfold Arena.Live at hlive
    rw [hdrop x hx] at hlive
    exact hs.tops x hx hlive

theorem given_snoc (a : Nat) (ms : List (String × JsonRef)) (key : String) (v : JsonRef) :
    given a (ms ++ [(key, v)]) = given a ms ++ if isBelow a v then [v] else [] := by
  unfold given
  rw [List.map_append, List.filter_append, List.map_cons, List.map_nil, List.filter_cons,
    List.filter_nil]

/-- One member is made. What user code handed over for it is in the object, or it was given up
when the member could not be inserted. -/
theorem Topped.member {a : Nat} {u t : JsonStore} {ms : List (String × JsonRef)}
    (h : Topped a u t ms) {key : String} (hkey : ms.lookup key = none) {part : Part}
    (hfit : part.Fits a) (hone : part.refs = [] ∨ given a ms = []) (fails : Bool) :
    ∃ u' ms', Topped a u' (addPart fails (some (.node a)) key part t) ms' ∧
      giveUp (given a ms') u' = giveUp (given a ms ++ part.refs) u ∧
      (ms' = ms ∨ ∃ v, ms' = ms ++ [(key, v)]) ∧ (part.refs = [] → given a ms' = given a ms) := by
  have hsame : part.refs = [] → giveUp (given a ms) u = giveUp (given a ms ++ part.refs) u := by
    intro hnil
    rw [hnil, List.append_nil]
  cases part with
  | leaf lost node =>
    obtain ⟨_, hscalar⟩ := hfit
    have hnode := children_of_scalar hscalar
    cases lost with
    | true => exact ⟨u, ms, h, hsame rfl, .inl rfl, fun _ => rfl⟩
    | false =>
      cases fails with
      | true =>
        refine ⟨u, ms, ?_, hsame rfl, .inl rfl, fun _ => rfl⟩
        have hcell : (t.new node).1.nodes.cells a = some ⟨1, .object ms⟩ := by
          rw [new_cells_ne (Nat.ne_of_lt (Arena.lt_next_of_cell h.cell)), h.cell]
        unfold addPart
        simp only [Bool.false_eq_true, if_false]
        rw [object_set_new_fails hcell, json_decref_new hnode]
        exact h
      | false =>
        have hle : a ≤ t.nodes.next := Nat.le_of_lt (Arena.lt_next_of_cell h.cell)
        have hgiven : given a (ms ++ [(key, .node t.nodes.next)]) = given a ms := by
          rw [given_snoc, if_neg (by simpa [isBelow] using hle), List.append_nil]
        refine ⟨u, _, h.insert_leaf hkey hnode, ?_, .inr ⟨_, rfl⟩, fun _ => hgiven⟩
        rw [hgiven]
        exact hsame rfl
  | given value =>
    cases value with
    | none => exact ⟨u, ms, h, hsame rfl, .inl rfl, fun _ => rfl⟩
    | some v =>
      have hv : Below a v := hfit v rfl
      cases fails with
      | true =>
        have hnil : given a ms = [] := hone.resolve_left (by simp [Part.refs])
        refine ⟨giveUp [v] u, ms, ?_, ?_, .inl rfl, fun _ => rfl⟩
        · unfold addPart
          simp only
          rw [object_set_new_fails h.cell]
          exact h.give_up hv
        · rw [hnil, giveUp_nil]
          rfl
      | false =>
        refine ⟨u, _, h.insert hkey hv, ?_, .inr ⟨v, rfl⟩, fun hnil => by cases hnil⟩
        rw [given_snoc, if_pos (isBelow_iff.mpr hv)]
        rfl

/-! ## The objects that are sent -/

/-- Without an object, what user code handed over is given up at once. -/
theorem addPart_none (fails : Bool) (key : String) {part : Part} {a : Nat} (hfit : part.Fits a)
    (s : JsonStore) : addPart fails none key part s = giveUp part.refs s := by
  cases part with
  | leaf lost node =>
    obtain ⟨_, hscalar⟩ := hfit
    rw [addPart_leaf_none _ _ _ (children_of_scalar hscalar)]
    exact (giveUp_nil s).symm
  | given value =>
    rw [Part.refs, ← json_decref_eq]
    cases value <;> rfl

/-- An object that is built and given up gives up what user code handed over for it. -/
theorem buildPair_release {s : JsonStore} (hs : Fenced s.nodes.next s) {key1 key2 : String}
    {part1 part2 : Part} (hfit1 : part1.Fits s.nodes.next) (hfit2 : part2.Fits s.nodes.next)
    (hkeys : key2 ≠ key1) (hone : part1.refs = [] ∨ part2.refs = []) (oom0 oom1 oom2 : Bool) :
    json_decref (buildPair oom0 oom1 oom2 key1 part1 key2 part2 s).2
        (buildPair oom0 oom1 oom2 key1 part1 key2 part2 s).1 =
      giveUp (part1.refs ++ part2.refs) s := by
  cases oom0 with
  | true =>
    show addPart oom2 none key2 part2 (addPart oom1 none key1 part1 s) = _
    rw [addPart_none _ _ hfit1, addPart_none _ _ hfit2, giveUp_append]
  | false =>
    obtain ⟨u1, ms1, h1, hgive1, hms1, hnil1⟩ := (topped_new hs).member
      (rfl : ([] : List (String × JsonRef)).lookup key1 = none) hfit1 (.inr rfl) oom1
    have hkey2 : ms1.lookup key2 = none := by
      rcases hms1 with rfl | ⟨v, rfl⟩
      · rfl
      · rw [List.nil_append, List.lookup_cons, beq_false_of_ne hkeys]
        rfl
    have hone2 : part2.refs = [] ∨ given s.nodes.next ms1 = [] := by
      rcases hone with hnil | hnil
      · exact .inr (hnil1 hnil)
      · exact .inl hnil
    obtain ⟨u2, ms2, h2, hgive2, _⟩ := h1.member hkey2 hfit2 hone2 oom2
    refine h2.decref.trans (hgive2.trans ?_)
    rw [giveUp_append, hgive1, giveUp_append part1.refs]
    rfl

end jrpc.connection

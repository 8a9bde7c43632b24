-- The values that user code builds for a call: a new array or object, and its elements one
-- after another. Each of them lies on top of the store as it was, so when the value is given
-- up, the store is as it was again.
import Jrpc.Release

open heap
open jrpc.json

namespace jrpc.connection

/-- A reference to a leaf above the node at `a`, with this value. -/
def LeafAt (a : Nat) (t : JsonStore) (r : JsonRef) (v : Json) : Prop :=
  ∃ x node, r = .node x ∧ a < x ∧ t.nodes.cells x = some ⟨1, node⟩ ∧ scalar node = some v

/-- The second store is the first one with one node more, and with the leaves that this node
holds. -/
structure OnTop (a : Nat) (u t : JsonStore) (node : JsonNode) (vs : List Json) : Prop where
  cell : t.nodes.cells a = some ⟨1, node⟩
  stacked : Stacked a u (t.drop a) node.children
  leaves : List.Forall₂ (LeafAt a t) node.children vs

theorem LeafAt.above {a : Nat} {t : JsonStore} {r : JsonRef} {v : Json} (h : LeafAt a t r v) :
    isBelow a r = false := by
  obtain ⟨x, _, rfl, hx, _, _⟩ := h
  simpa [isBelow] using Nat.le_of_lt hx

theorem OnTop.above {a : Nat} {u t : JsonStore} {node : JsonNode} {vs : List Json}
    (h : OnTop a u t node vs) : ∀ r ∈ node.children, ∃ v, LeafAt a t r v := by
  intro r hr
  obtain ⟨i, hi, rfl⟩ := List.getElem_of_mem hr
  exact ⟨_, h.leaves.get hi (h.leaves.length_eq ▸ hi)⟩

/-- What is on top is given up in whole. -/
theorem OnTop.decref {a : Nat} {u t : JsonStore} {node : JsonNode} {vs : List Json}
    (h : OnTop a u t node vs) : json_decref (some (.node a)) t = u := by
  have hnone : node.children.filter (isBelow a) = [] := by
    apply List.filter_eq_nil_iff.mpr
    intro r hr
    obtain ⟨v, hv⟩ := h.above r hr
    rw [hv.above]
    exact Bool.false_ne_true
  rw [json_decref_eq, Option.toList_some, giveUp_last h.cell (Nat.le_refl 1), List.append_nil,
    h.stacked.giveUp, hnone, giveUp_nil]

theorem OnTop.live {a : Nat} {u t : JsonStore} {node : JsonNode} {vs : List Json}
    (h : OnTop a u t node vs) : t.Live (.node a) :=
  Arena.live_iff.mpr ⟨_, h.cell⟩

/-- A store that had no stale reference has none with the new value. -/
theorem OnTop.closed {a : Nat} {u t : JsonStore} {node : JsonNode} {vs : List Json}
    (h : OnTop a u t node vs) (hu : u.Closed) : t.Closed := by
  intro b _ r hr
  rcases Nat.lt_trichotomy b a with hlt | rfl | hgt
  · -- an old node holds old references
    have hsame : ∀ x < a, t.nodes.cells x = u.nodes.cells x := by
      intro x hx
      rw [← h.stacked.below x hx, drop_cells_ne (Nat.ne_of_lt hx)]
    have hr' : r ∈ u.childrenAt b := by
      unfold JsonStore.childrenAt at hr ⊢
      rwa [hsame b hlt] at hr
    have hb : b < u.nodes.next := by
      by_contra hn
      unfold JsonStore.childrenAt at hr'
      rw [u.nodes.bounded b (Nat.le_of_not_lt hn)] at hr'
      cases hr'
    have hlive := hu b hb r hr'
    cases r with
    | node x =>
      obtain ⟨c, hc⟩ := Arena.live_iff.mp hlive
      have hx := Nat.lt_of_lt_of_le (Arena.lt_next_of_cell hc) h.stacked.bounded
      exact Arena.live_iff.mpr ⟨c, (hsame x hx).trans hc⟩
    | _ => trivial
  · rw [childrenAt_eq h.cell] at hr
    obtain ⟨v, x, leaf, rfl, _, hx, _⟩ := h.above r hr
    exact Arena.live_iff.mpr ⟨_, hx⟩
  · -- every other node is a leaf
    rcases hc : t.nodes.cells b with _ | c
    · unfold JsonStore.childrenAt at hr
      rw [hc] at hr
      cases hr
    · have hdrop : (t.drop a).nodes.cells b = some c := by
        rw [drop_cells_ne (Nat.ne_of_gt hgt), hc]
      have htop := h.stacked.tops b (Nat.le_of_lt hgt) (Arena.live_iff.mpr ⟨c, hdrop⟩)
      obtain ⟨leaf, hleaf, hnone⟩ := h.stacked.leaves b (Nat.le_of_lt hgt) htop
      rw [hdrop] at hleaf
      cases hleaf
      rw [childrenAt_eq hc, hnone] at hr
      cases hr

/-- A new array or object that holds nothing yet. -/
theorem onTop_new {s : JsonStore} (hs : s.Closed) {node : JsonNode} (hnode : node.children = []) :
    OnTop s.nodes.next s (s.new node).1 node [] := by
  have hdrop : ((s.new node).1.drop s.nodes.next) = s := by
    refine store_ext (fun b => ?_) rfl
    by_cases hb : b = s.nodes.next
    · rw [hb, drop_cells_self, s.nodes.bounded _ (Nat.le_refl _)]
    · rw [drop_cells_ne hb, new_cells_ne hb]
  refine ⟨new_cells_self s _, ?_, hnode ▸ .nil⟩
  rw [hdrop, hnode]
  refine ⟨fun _ _ => rfl, Nat.le_refl _, fenced_of_closed hs, rfl, ?_, ?_, ?_⟩
  · intro x _ hmem
    cases hmem
  · intro x hx hlive
    obtain ⟨c, hc⟩ := Arena.live_iff.mp hlive
    have hlt := Arena.lt_next_of_cell hc
    omega
  · intro x _
    exact Nat.zero_le 1

/-- The node holds one leaf more, which is new. -/
theorem OnTop.grow {a : Nat} {u t t' : JsonStore} {node node' leaf : JsonNode} {vs : List Json}
    {v : Json} (h : OnTop a u t node vs) (hv : scalar leaf = some v)
    (hchildren : node'.children = node.children ++ [.node t.nodes.next])
    (hcell : t'.nodes.cells a = some ⟨1, node'⟩)
    (hother : ∀ b, b ≠ a → t'.nodes.cells b = (t.new leaf).1.nodes.cells b)
    (hunder : t'.underflow = t.underflow) : OnTop a u t' node' (vs ++ [v]) := by
  have ha := Arena.lt_next_of_cell h.cell
  have hs := h.stacked
  have hold : ∀ b, b ≠ t.nodes.next → (t'.drop a).nodes.cells b = (t.drop a).nodes.cells b := by
    intro b hb
    by_cases hba : b = a
    · rw [hba, drop_cells_self, drop_cells_self]
    · rw [drop_cells_ne hba, drop_cells_ne hba, hother b hba, new_cells_ne hb]
  have hnew : t'.nodes.cells t.nodes.next = some ⟨1, leaf⟩ := by
    rw [hother _ (Nat.ne_of_gt ha), new_cells_self]
  have hnew' : (t'.drop a).nodes.cells t.nodes.next = some ⟨1, leaf⟩ := by
    rw [drop_cells_ne (Nat.ne_of_gt ha), hnew]
  have hfresh : .node t.nodes.next ∉ node.children := by
    intro hmem
    obtain ⟨leaf', hc, _⟩ := hs.leaves _ (Nat.le_of_lt ha) hmem
    rw [drop_cells_ne (Nat.ne_of_gt ha), t.nodes.bounded _ (Nat.le_refl _)] at hc
    cases hc
  refine ⟨hcell, ?_, ?_⟩
  · rw [hchildren]
    refine ⟨?_, hs.bounded, hs.fenced, hunder.trans hs.underflow, ?_, ?_, ?_⟩
    · intro b hb
      rw [hold b (by omega)]
      exact hs.below b hb
    · intro x hx hmem
      by_cases hxn : x = t.nodes.next
      · rw [hxn, hnew']
        exact ⟨leaf, rfl, children_of_scalar hv⟩
      · rw [hold x hxn]
        rcases List.mem_append.mp hmem with hmem | hmem
        · exact hs.leaves x hx hmem
        · exact absurd (JsonRef.node.inj (List.mem_singleton.mp hmem)) hxn
    · intro x hx hlive
      by_cases hxn : x = t.nodes.next
      · rw [hxn]
        exact List.mem_append_right _ List.mem_cons_self
      · unfold Arena.Live at hlive
        rw [hold x hxn] at hlive
        exact List.mem_append_left _ (hs.tops x hx hlive)
    · intro x hx
      rw [List.count_append]
      by_cases hxn : x = t.nodes.next
      · rw [hxn, List.count_eq_zero.mpr hfresh, List.count_singleton_self]
      · rw [List.count_singleton, beq_false_of_ne (by simpa using Ne.symm hxn)]
        exact hs.distinct x hx
  · rw [hchildren]
    refine List.rel_append (h.leaves.imp ?_) (.cons ⟨_, leaf, rfl, ha, hnew, hv⟩ .nil)
    rintro r v' ⟨x, leaf', rfl, hx, hc, hv'⟩
    refine ⟨x, leaf', rfl, hx, ?_, hv'⟩
    have hxn : x ≠ t.nodes.next := Nat.ne_of_lt (Arena.lt_next_of_cell hc)
    rw [hother x (Nat.ne_of_gt hx), new_cells_ne hxn, hc]

/-- A value that can be sent: the store is closed with it, and it is as it was when the value is
given up. -/
structure Sendable (s t : JsonStore) (value : Option JsonRef) : Prop where
  closed : t.Closed
  live : ∀ r, value = some r → t.Live r
  back : json_decref value t = s

theorem OnTop.sendable {a : Nat} {u t : JsonStore} {node : JsonNode} {vs : List Json}
    (h : OnTop a u t node vs) (hu : u.Closed) : Sendable u t (some (.node a)) where
  closed := h.closed hu
  live r hr := by
    cases hr
    exact h.live
  back := h.decref

theorem sendable_none {s : JsonStore} (hs : s.Closed) : Sendable s s none :=
  ⟨hs, fun _ hr => (by cases hr), rfl⟩

/-! ## Arrays and objects -/

/-- A new leaf is appended to an array. -/
theorem OnTop.append {a : Nat} {u t : JsonStore} {rs : List JsonRef} {vs : List Json}
    (h : OnTop a u t (.array rs) vs) {leaf : JsonNode} {v : Json} (hv : scalar leaf = some v) :
    OnTop a u (json_array_append_new false (some (.node a)) (some (t.new leaf).2) (t.new leaf).1)
      (.array (rs ++ [.node t.nodes.next])) (vs ++ [v]) := by
  have ha := Arena.lt_next_of_cell h.cell
  have hcell : (t.new leaf).1.nodes.cells a = some ⟨1, .array rs⟩ := by
    rw [new_cells_ne (Nat.ne_of_lt ha), h.cell]
  have hne : (JsonRef.node t.nodes.next) ≠ .node a := by
    simpa using Nat.ne_of_gt ha
  unfold json_array_append_new
  simp only [new_ref, hcell, hne, Bool.false_eq_true, or_self, if_false]
  refine h.grow hv rfl ?_ (fun b hb => ?_) rfl
  · show ((t.new leaf).1.nodes.modify a _).cells a = _
    rw [Pool.modify_toArena, Arena.modify_cells_self, hcell]
    rfl
  · exact Arena.modify_cells_ne hb

/-- A leaf that cannot be appended is given up. -/
theorem OnTop.append_fails {a : Nat} {u t : JsonStore} {rs : List JsonRef} {vs : List Json}
    (h : OnTop a u t (.array rs) vs) {leaf : JsonNode} (hleaf : leaf.children = []) :
    json_array_append_new true (some (.node a)) (some (t.new leaf).2) (t.new leaf).1 = t := by
  have hcell : (t.new leaf).1.nodes.cells a = some ⟨1, .array rs⟩ := by
    rw [new_cells_ne (Nat.ne_of_lt (Arena.lt_next_of_cell h.cell)), h.cell]
  unfold json_array_append_new
  simp only [new_ref, hcell, true_or, if_true]
  rw [← new_ref t leaf, json_decref_new hleaf]

/-- Without an array, a new leaf is given up. -/
theorem array_append_none (fails : Bool) {t : JsonStore} {leaf : JsonNode}
    (hleaf : leaf.children = []) :
    json_array_append_new fails none (some (t.new leaf).2) (t.new leaf).1 = t :=
  json_decref_new hleaf

/-- A new leaf becomes a member of an object, under a new key. -/
theorem OnTop.set {a : Nat} {u t : JsonStore} {ms : List (String × JsonRef)} {vs : List Json}
    (h : OnTop a u t (.object ms) vs) {key : String} (hkey : ms.lookup key = none)
    {leaf : JsonNode} {v : Json} (hv : scalar leaf = some v) :
    OnTop a u (json_object_set_new false (some (.node a)) key (some (t.new leaf).2)
      (t.new leaf).1) (.object (ms ++ [(key, .node t.nodes.next)])) (vs ++ [v]) := by
  have ha := Arena.lt_next_of_cell h.cell
  have hcell : (t.new leaf).1.nodes.cells a = some ⟨1, .object ms⟩ := by
    rw [new_cells_ne (Nat.ne_of_lt ha), h.cell]
  have hne : (JsonRef.node t.nodes.next) ≠ .node a := by
    simpa using Nat.ne_of_gt ha
  rw [new_ref, object_set_new_inserts hcell hkey hne]
  refine h.grow hv ?_ ?_ (fun b hb => ?_) rfl
  · simp [JsonNode.children]
  · show ((t.new leaf).1.nodes.modify a _).cells a = _
    rw [Pool.modify_toArena, Arena.modify_cells_self, hcell]
    rfl
  · exact Arena.modify_cells_ne hb

theorem OnTop.set_fails {a : Nat} {u t : JsonStore} {ms : List (String × JsonRef)}
    {vs : List Json} (h : OnTop a u t (.object ms) vs) (key : String) {leaf : JsonNode}
    (hleaf : leaf.children = []) :
    json_object_set_new true (some (.node a)) key (some (t.new leaf).2) (t.new leaf).1 = t := by
  have hcell : (t.new leaf).1.nodes.cells a = some ⟨1, .object ms⟩ := by
    rw [new_cells_ne (Nat.ne_of_lt (Arena.lt_next_of_cell h.cell)), h.cell]
  rw [object_set_new_fails hcell, json_decref_new hleaf]

/-! ## What they read as -/

theorem LeafAt.reads {a : Nat} {t : JsonStore} {r : JsonRef} {v : Json} (h : LeafAt a t r v)
    (n : Nat) : t.readFuel (n + 1) r = some v := by
  obtain ⟨x, leaf, rfl, _, hc, hv⟩ := h
  exact readFuel_scalar hc hv (Nat.succ_pos n)

theorem OnTop.next_pos {a : Nat} {u t : JsonStore} {node : JsonNode} {vs : List Json}
    (h : OnTop a u t node vs) : ∃ n, t.nodes.next = n + 1 :=
  Nat.exists_eq_add_one.mpr (Nat.zero_lt_of_lt (Arena.lt_next_of_cell h.cell))

theorem OnTop.read_array {a : Nat} {u t : JsonStore} {rs : List JsonRef} {vs : List Json}
    (h : OnTop a u t (.array rs) vs) : t.read (.node a) = some (.array vs) := by
  obtain ⟨n, hn⟩ := h.next_pos
  have hrs : rs.mapM (t.readFuel (n + 1)) = some vs := by
    have hleaves : List.Forall₂ (LeafAt a t) rs vs := h.leaves
    clear h
    induction hleaves with
    | nil => rfl
    | cons hr _ ih =>
      simp only [List.mapM_cons, hr.reads n, ih, Option.bind_eq_bind, Option.bind_some,
        Option.pure_def]
  unfold JsonStore.read
  rw [hn, readFuel_node, h.cell]
  simp only [hrs, Option.map_some]

theorem OnTop.read_object {a : Nat} {u t : JsonStore} {key : String} {r : JsonRef} {v : Json}
    (h : OnTop a u t (.object [(key, r)]) [v]) :
    t.read (.node a) = some (.object [(key, v)]) := by
  obtain ⟨n, hn⟩ := h.next_pos
  have hleaf : LeafAt a t r v := by
    have hleaves : List.Forall₂ (LeafAt a t) [r] [v] := h.leaves
    cases hleaves with
    | cons hr _ => exact hr
  unfold JsonStore.read
  rw [hn, readFuel_node, h.cell]
  simp [hleaf.reads n]

end jrpc.connection

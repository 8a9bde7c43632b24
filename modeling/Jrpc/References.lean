-- What it means that references are counted. The count of a node is the number of references
-- to it, from other nodes and from outside, and giving up a reference keeps it so. Giving up
-- many references is giving them up one after another, in a store of any size.
import Jrpc.Build

open heap

namespace jrpc.json

/-! ## Sums over all nodes -/

/-- A sum over the nodes below an address, by the references that each of them holds. -/
def sumBelow (f : List JsonRef → Nat) (s : JsonStore) : Nat → Nat
  | 0 => 0
  | n + 1 => sumBelow f s n + f (s.childrenAt n)

theorem linksBelow_eq (s : JsonStore) (n : Nat) : linksBelow s n = sumBelow List.length s n := by
  induction n with
  | zero => rfl
  | succ n ih => rw [linksBelow, sumBelow, ih]

theorem sumBelow_congr {f : List JsonRef → Nat} {s t : JsonStore} {n : Nat}
    (h : ∀ a < n, t.childrenAt a = s.childrenAt a) : sumBelow f t n = sumBelow f s n := by
  induction n with
  | zero => rfl
  | succ n ih =>
    rw [sumBelow, sumBelow, h n (Nat.lt_succ_self n), ih (fun a ha => h a (by omega))]

/-- From the highest node on, nothing is added. -/
theorem sumBelow_next {f : List JsonRef → Nat} (hf : f [] = 0) (s : JsonStore) {n : Nat}
    (hn : s.nodes.next ≤ n) : sumBelow f s n = sumBelow f s s.nodes.next := by
  induction n with
  | zero => rw [Nat.le_zero.mp hn]
  | succ n ih =>
    by_cases hs : s.nodes.next = n + 1
    · rw [hs]
    · have hnone : s.childrenAt n = [] := by
        unfold JsonStore.childrenAt
        rw [s.nodes.bounded n (by omega)]
      rw [sumBelow, hnone, hf, ih (by omega)]
      rfl

/-- Without one of the nodes, its references are missing. -/
theorem sumBelow_without {f : List JsonRef → Nat} (hf : f [] = 0) {s t : JsonStore} {a : Nat}
    (hgone : t.childrenAt a = []) (hsame : ∀ b, b ≠ a → t.childrenAt b = s.childrenAt b)
    (n : Nat) :
    sumBelow f t n + (if a < n then f (s.childrenAt a) else 0) = sumBelow f s n := by
  induction n with
  | zero => simp [sumBelow]
  | succ n ih =>
    rw [sumBelow, sumBelow, ← ih]
    by_cases hn : n = a
    · subst n
      rw [hgone, hf]
      simp
    · rw [hsame n hn]
      have hlt : a < n + 1 ↔ a < n := by omega
      simp only [hlt]
      omega

/-! ## One node less, or one reference less -/

/-- The store without a node. -/
def JsonStore.drop (s : JsonStore) (a : Nat) : JsonStore := { s with nodes := s.nodes.free a }

/-- The store with one reference less to a node. -/
def JsonStore.lower (s : JsonStore) (a : Nat) : JsonStore :=
  { s with nodes := s.nodes.modify a fun c => { c with refcount := c.refcount - 1 } }

/-- The store after a reference was given up that nobody held. -/
def JsonStore.overdrawn (s : JsonStore) : JsonStore := { s with underflow := true }

@[simp] theorem drop_cells_self (s : JsonStore) (a : Nat) : (s.drop a).nodes.cells a = none :=
  Arena.free_cells_self _ _

theorem drop_cells_ne {s : JsonStore} {a b : Nat} (hb : b ≠ a) :
    (s.drop a).nodes.cells b = s.nodes.cells b :=
  Arena.free_cells_ne hb

theorem drop_next_le (s : JsonStore) (a : Nat) : (s.drop a).nodes.next ≤ s.nodes.next :=
  top_le _ _

@[simp] theorem lower_cells_self (s : JsonStore) (a : Nat) :
    (s.lower a).nodes.cells a =
      (s.nodes.cells a).map fun c => { c with refcount := c.refcount - 1 } :=
  Arena.modify_cells_self _ _ _

theorem lower_cells_ne {s : JsonStore} {a b : Nat} (hb : b ≠ a) :
    (s.lower a).nodes.cells b = s.nodes.cells b :=
  Arena.modify_cells_ne hb

theorem lower_children (s : JsonStore) (a b : Nat) :
    (s.lower a).childrenAt b = s.childrenAt b := by
  unfold JsonStore.childrenAt
  by_cases hb : b = a
  · subst b
    rw [lower_cells_self]
    cases s.nodes.cells a <;> rfl
  · rw [lower_cells_ne hb]

theorem drop_children_ne {s : JsonStore} {a b : Nat} (hb : b ≠ a) :
    (s.drop a).childrenAt b = s.childrenAt b := by
  unfold JsonStore.childrenAt
  rw [drop_cells_ne hb]

theorem childrenAt_eq {s : JsonStore} {a : Nat} {c : JsonCell}
    (ha : s.nodes.cells a = some c) : s.childrenAt a = c.node.children := by
  unfold JsonStore.childrenAt
  rw [ha]

/-- The sum over a store with one node less. -/
theorem sum_drop {f : List JsonRef → Nat} (hf : f [] = 0) {s : JsonStore} {a : Nat}
    {c : JsonCell} (ha : s.nodes.cells a = some c) :
    sumBelow f (s.drop a) (s.drop a).nodes.next + f c.node.children =
      sumBelow f s s.nodes.next := by
  have hgone : (s.drop a).childrenAt a = [] := by
    unfold JsonStore.childrenAt
    rw [drop_cells_self]
  rw [← sumBelow_without hf hgone (fun b hb => drop_children_ne hb) s.nodes.next,
    if_pos (Arena.lt_next_of_cell ha), childrenAt_eq ha, sumBelow_next hf _ (drop_next_le s a)]

/-! ## Giving up references -/

/-- Gives up one reference to each node of the list, with as many turns as it takes. -/
def giveUp (rs : List JsonRef) (s : JsonStore) : JsonStore :=
  decrefFuel (linksBelow s s.nodes.next + rs.length) rs s

theorem json_decref_eq (value : Option JsonRef) (s : JsonStore) :
    json_decref value s = giveUp value.toList s := by
  cases value with
  | none => exact (decrefFuel_nil _ s).symm
  | some r => rfl

/-- The turns that the first reference of the list leaves for the others. -/
theorem links_drop {s : JsonStore} {a : Nat} {c : JsonCell} (ha : s.nodes.cells a = some c) :
    linksBelow (s.drop a) (s.drop a).nodes.next + c.node.children.length =
      linksBelow s s.nodes.next := by
  rw [linksBelow_eq, linksBelow_eq]
  exact sum_drop rfl ha

theorem links_lower (s : JsonStore) (a : Nat) :
    linksBelow (s.lower a) (s.lower a).nodes.next = linksBelow s s.nodes.next := by
  rw [linksBelow_eq, linksBelow_eq]
  exact sumBelow_congr (fun b _ => lower_children s a b)

theorem links_overdrawn (s : JsonStore) :
    linksBelow s.overdrawn s.overdrawn.nodes.next = linksBelow s s.nodes.next :=
  linksBelow_congr _ (fun _ _ => rfl)

/-- More turns than it takes change nothing. -/
theorem decrefFuel_more {fuel : Nat} {rs : List JsonRef} {s : JsonStore}
    (h : linksBelow s s.nodes.next + rs.length ≤ fuel) (k : Nat) :
    decrefFuel (fuel + k) rs s = decrefFuel fuel rs s := by
  induction fuel generalizing rs s with
  | zero =>
    have hnil : rs = [] := List.eq_nil_of_length_eq_zero (by omega)
    rw [hnil, decrefFuel_nil, decrefFuel_nil]
  | succ fuel ih =>
    rw [show fuel + 1 + k = fuel + k + 1 by omega]
    cases rs with
    | nil => rfl
    | cons r rest =>
      rw [List.length_cons] at h
      cases r with
      | node a =>
        unfold decrefFuel
        rcases hc : s.nodes.cells a with _ | c
        · apply ih
          have hlinks := links_overdrawn s
          show linksBelow s.overdrawn s.overdrawn.nodes.next + rest.length ≤ fuel
          omega
        · dsimp only
          split
          · apply ih
            have hlinks := links_drop hc
            rw [List.length_append]
            show linksBelow (s.drop a) (s.drop a).nodes.next +
              (c.node.children.length + rest.length) ≤ fuel
            omega
          · apply ih
            have hlinks := links_lower s a
            show linksBelow (s.lower a) (s.lower a).nodes.next + rest.length ≤ fuel
            omega
      | _ =>
        apply ih
        omega

theorem decrefFuel_enough {fuel : Nat} {rs : List JsonRef} {s : JsonStore}
    (h : linksBelow s s.nodes.next + rs.length ≤ fuel) : decrefFuel fuel rs s = giveUp rs s := by
  obtain ⟨k, rfl⟩ := Nat.exists_eq_add_of_le h
  exact decrefFuel_more (Nat.le_refl _) k

/-- A loaded value is given up in whole, in every store that has the same counts and references
in its place. -/
theorem decref_alike (v : Json) (s : JsonStore) {t : JsonStore}
    (h : Alike s.nodes.next (load v s).1.nodes.next t (load v s).1) :
    Cleared s.nodes.next (load v s).1.nodes.next t (json_decref (some (load v s).2) t) := by
  obtain ⟨t', ht', hd⟩ := decref_load v s t (linksBelow t t.nodes.next + 1) [] h
  rw [decrefFuel_nil, decrefFuel_enough (by simp only [List.length_singleton]; omega)] at hd
  rw [json_decref_eq, Option.toList_some, hd]
  exact ht'

@[simp] theorem giveUp_nil (s : JsonStore) : giveUp [] s = s := decrefFuel_nil _ s

/-- The three constants are not counted. -/
theorem giveUp_constant {r : JsonRef} (hr : ∀ a, r ≠ .node a) (rest : List JsonRef)
    (s : JsonStore) : giveUp (r :: rest) s = giveUp rest s := by
  cases r with
  | node a => exact absurd rfl (hr a)
  | _ => rfl

theorem giveUp_gone {s : JsonStore} {a : Nat} (ha : s.nodes.cells a = none)
    (rest : List JsonRef) :
    giveUp (.node a :: rest) s = giveUp rest s.overdrawn := by
  have hlinks := links_overdrawn s
  rw [giveUp, List.length_cons, ← Nat.add_assoc, decrefFuel, ha]
  apply decrefFuel_enough
  show linksBelow s.overdrawn s.overdrawn.nodes.next + _ ≤ _
  omega

/-- With its last reference a node is gone, and what it held is given up. -/
theorem giveUp_last {s : JsonStore} {a : Nat} {c : JsonCell} (ha : s.nodes.cells a = some c)
    (hc : c.refcount ≤ 1) (rest : List JsonRef) :
    giveUp (.node a :: rest) s = giveUp (c.node.children ++ rest) (s.drop a) := by
  have hlinks := links_drop ha
  rw [giveUp, List.length_cons, ← Nat.add_assoc, decrefFuel, ha]
  dsimp only
  rw [if_pos hc]
  apply decrefFuel_enough
  rw [List.length_append]
  show linksBelow (s.drop a) (s.drop a).nodes.next + _ ≤ _
  omega

theorem giveUp_shared {s : JsonStore} {a : Nat} {c : JsonCell} (ha : s.nodes.cells a = some c)
    (hc : ¬ c.refcount ≤ 1) (rest : List JsonRef) :
    giveUp (.node a :: rest) s = giveUp rest (s.lower a) := by
  have hlinks := links_lower s a
  rw [giveUp, List.length_cons, ← Nat.add_assoc, decrefFuel, ha]
  dsimp only
  rw [if_neg hc]
  apply decrefFuel_enough
  show linksBelow (s.lower a) (s.lower a).nodes.next + _ ≤ _
  omega

/-- What holds of a store when all is given up, it is enough to carry from turn to turn. -/
theorem giveUp_induction {P : List JsonRef → JsonStore → Prop} (hnil : ∀ s, P [] s)
    (hconst : ∀ r rest s, (∀ a, r ≠ .node a) → P rest s → P (r :: rest) s)
    (hgone : ∀ a rest s, s.nodes.cells a = none → P rest s.overdrawn →
      P (.node a :: rest) s)
    (hlast : ∀ a rest s c, s.nodes.cells a = some c → c.refcount ≤ 1 →
      P (c.node.children ++ rest) (s.drop a) → P (.node a :: rest) s)
    (hshared : ∀ a rest s c, s.nodes.cells a = some c → ¬ c.refcount ≤ 1 →
      P rest (s.lower a) → P (.node a :: rest) s)
    (rs : List JsonRef) (s : JsonStore) : P rs s := by
  obtain ⟨n, hn⟩ : ∃ n, linksBelow s s.nodes.next + rs.length ≤ n := ⟨_, Nat.le_refl _⟩
  induction n generalizing rs s with
  | zero =>
    have hrs : rs = [] := List.eq_nil_of_length_eq_zero (by omega)
    rw [hrs]
    exact hnil s
  | succ n ih =>
    cases rs with
    | nil => exact hnil s
    | cons r rest =>
      rw [List.length_cons] at hn
      cases r with
      | node a =>
        rcases hc : s.nodes.cells a with _ | c
        · apply hgone a rest s hc
          apply ih
          have hlinks := links_overdrawn s
          omega
        · by_cases hle : c.refcount ≤ 1
          · apply hlast a rest s c hc hle
            apply ih
            have hlinks := links_drop hc
            rw [List.length_append]
            omega
          · apply hshared a rest s c hc hle
            apply ih
            have hlinks := links_lower s a
            omega
      | _ =>
        apply hconst _ rest s (by simp)
        apply ih
        omega

/-- The references of two lists are given up one list after the other. -/
theorem giveUp_append (rs rs' : List JsonRef) (s : JsonStore) :
    giveUp (rs ++ rs') s = giveUp rs' (giveUp rs s) := by
  apply giveUp_induction (P := fun rs s => giveUp (rs ++ rs') s = giveUp rs' (giveUp rs s))
  · intro s
    rw [giveUp_nil, List.nil_append]
  · intro r rest s hr ih
    rw [List.cons_append, giveUp_constant hr, giveUp_constant hr, ih]
  · intro a rest s ha ih
    rw [List.cons_append, giveUp_gone ha, giveUp_gone ha, ih]
  · intro a rest s c ha hc ih
    rw [List.cons_append, giveUp_last ha hc, giveUp_last ha hc, ← List.append_assoc, ih]
  · intro a rest s c ha hc ih
    rw [List.cons_append, giveUp_shared ha hc, giveUp_shared ha hc, ih]

theorem giveUp_cons (r : JsonRef) (rest : List JsonRef) (s : JsonStore) :
    giveUp (r :: rest) s = giveUp rest (giveUp [r] s) := giveUp_append [r] rest s

/-- A node that is gone does not come back. -/
theorem giveUp_stays_gone (rs : List JsonRef) (s : JsonStore) {a : Nat}
    (ha : s.nodes.cells a = none) : (giveUp rs s).nodes.cells a = none := by
  revert ha
  apply giveUp_induction
    (P := fun rs s => s.nodes.cells a = none → (giveUp rs s).nodes.cells a = none)
  · intro s ha
    rwa [giveUp_nil]
  · intro r rest s hr ih ha
    rw [giveUp_constant hr]
    exact ih ha
  · intro b rest s hb ih ha
    rw [giveUp_gone hb]
    exact ih ha
  · intro b rest s c hb hc ih ha
    rw [giveUp_last hb hc]
    apply ih
    by_cases hab : a = b
    · rw [hab, drop_cells_self]
    · rw [drop_cells_ne hab, ha]
  · intro b rest s c hb hc ih ha
    rw [giveUp_shared hb hc]
    apply ih
    by_cases hab : a = b
    · rw [hab, hb] at ha
      cases ha
    · rw [lower_cells_ne hab, ha]

/-- What is not gone was there before. -/
theorem giveUp_extends (rs : List JsonRef) (s : JsonStore) : Extends (giveUp rs s) s := by
  apply giveUp_induction (P := fun rs s => Extends (giveUp rs s) s)
  · intro s a c ha
    rw [giveUp_nil] at ha
    exact ⟨c.refcount, ha⟩
  · intro r rest s hr ih
    rw [giveUp_constant hr]
    exact ih
  · intro b rest s hb ih
    rw [giveUp_gone hb]
    exact ih
  · intro b rest s c hb hc ih a x ha
    rw [giveUp_last hb hc] at ha
    obtain ⟨n, hn⟩ := ih a x ha
    by_cases hab : a = b
    · rw [hab, drop_cells_self] at hn
      cases hn
    · rw [drop_cells_ne hab] at hn
      exact ⟨n, hn⟩
  · intro b rest s c hb hc ih a x ha
    rw [giveUp_shared hb hc] at ha
    obtain ⟨n, hn⟩ := ih a x ha
    by_cases hab : a = b
    · rw [hab, lower_cells_self, hb, Option.map_some] at hn
      obtain ⟨_, hnode⟩ := JsonCell.mk.inj (Option.some.inj hn)
      exact ⟨c.refcount, by rw [hab, hb, ← hnode]⟩
    · rw [lower_cells_ne hab] at hn
      exact ⟨n, hn⟩

/-! ## Counts -/

/-- The count of a node. A node that is gone has none. -/
def JsonStore.count (s : JsonStore) (a : Nat) : Nat :=
  ((s.nodes.cells a).map (·.refcount)).getD 0

/-- The references to a node that other nodes hold. -/
def JsonStore.refsTo (s : JsonStore) (a : Nat) : Nat :=
  sumBelow (fun rs => rs.count (.node a)) s s.nodes.next

/-- The count of each node is the number of references to it: those that nodes hold, and those
that are held outside. -/
def Counted (s : JsonStore) (held : List JsonRef) : Prop :=
  ∀ a, s.count a = s.refsTo a + held.count (.node a)

theorem count_of_cell {s : JsonStore} {a : Nat} {c : JsonCell}
    (ha : s.nodes.cells a = some c) : s.count a = c.refcount := by
  unfold JsonStore.count
  rw [ha]
  rfl

theorem count_of_gone {s : JsonStore} {a : Nat} (ha : s.nodes.cells a = none) :
    s.count a = 0 := by
  unfold JsonStore.count
  rw [ha]
  rfl

theorem live_of_count {s : JsonStore} {a : Nat} (h : 0 < s.count a) : s.nodes.Live a := by
  rcases ha : s.nodes.cells a with _ | c
  · rw [count_of_gone ha] at h
    omega
  · exact Arena.live_iff.mpr ⟨c, ha⟩

theorem refs_drop {s : JsonStore} {a : Nat} {c : JsonCell} (ha : s.nodes.cells a = some c)
    (b : Nat) : (s.drop a).refsTo b + c.node.children.count (.node b) = s.refsTo b :=
  sum_drop rfl ha

theorem refs_lower (s : JsonStore) (a b : Nat) : (s.lower a).refsTo b = s.refsTo b :=
  sumBelow_congr (fun x _ => lower_children s a x)

theorem le_sumBelow {f : List JsonRef → Nat} {s : JsonStore} {a n : Nat} (h : a < n) :
    f (s.childrenAt a) ≤ sumBelow f s n := by
  induction n with
  | zero => omega
  | succ n ih =>
    rw [sumBelow]
    by_cases han : a = n
    · subst a
      omega
    · have hle := ih (by omega)
      omega

/-- With right counts, what a node refers to is not gone. -/
theorem Counted.closed {s : JsonStore} {held : List JsonRef} (h : Counted s held) :
    s.Closed := by
  intro a ha r hr
  cases r with
  | node b =>
    apply live_of_count
    have hle := le_sumBelow (f := fun rs => rs.count (.node b)) (s := s) ha
    have hpos : 0 < (s.childrenAt a).count (.node b) := List.count_pos_iff.mpr hr
    have hcount : s.count b = sumBelow (fun rs => rs.count (.node b)) s s.nodes.next +
      held.count (.node b) := h b
    omega
  | _ => trivial

/-- With right counts, what is held outside is not gone. -/
theorem Counted.live {s : JsonStore} {held : List JsonRef} (h : Counted s held) {r : JsonRef}
    (hr : r ∈ held) : s.Live r := by
  cases r with
  | node a =>
    apply live_of_count
    have hpos : 0 < held.count (.node a) := List.count_pos_iff.mpr hr
    have hcount := h a
    omega
  | _ => trivial

theorem sumBelow_zero {f : List JsonRef → Nat} {s : JsonStore} {n : Nat}
    (h : ∀ a < n, f (s.childrenAt a) = 0) : sumBelow f s n = 0 := by
  induction n with
  | zero => rfl
  | succ n ih =>
    rw [sumBelow, h n (Nat.lt_succ_self n), ih (fun a ha => h a (Nat.lt_succ_of_lt ha))]

/-- Counts are right when they are right below `next`, and nothing refers to what is gone. -/
theorem counted_iff {s : JsonStore} {held : List JsonRef} :
    Counted s held ↔ s.Closed ∧ (∀ r ∈ held, s.Live r) ∧
      ∀ a < s.nodes.next, s.count a = s.refsTo a + held.count (.node a) := by
  constructor
  · intro h
    exact ⟨h.closed, fun r hr => h.live hr, fun a _ => h a⟩
  · rintro ⟨hclosed, hheld, hbelow⟩ a
    by_cases ha : a < s.nodes.next
    · exact hbelow a ha
    · have hgone : s.nodes.cells a = none := s.nodes.bounded a (Nat.le_of_not_lt ha)
      have hdead : ¬ s.Live (.node a) := by
        intro hlive
        obtain ⟨c, hc⟩ := Arena.live_iff.mp hlive
        rw [hgone] at hc
        cases hc
      have hnone : s.refsTo a = 0 := by
        apply sumBelow_zero
        intro b hb
        exact List.count_eq_zero.mpr fun hmem => hdead (hclosed b hb _ hmem)
      rw [count_of_gone hgone, hnone,
        List.count_eq_zero.mpr fun hmem => hdead (hheld _ hmem)]

instance (s : JsonStore) (held : List JsonRef) : Decidable (Counted s held) :=
  decidable_of_iff _ counted_iff.symm

/-- References that are held are given up with no reference too many, and the counts are right
again. -/
theorem giveUp_counted (rs : List JsonRef) {held : List JsonRef} {s : JsonStore}
    (h : Counted s (rs ++ held)) :
    Counted (giveUp rs s) held ∧ (giveUp rs s).underflow = s.underflow := by
  revert h
  apply giveUp_induction (P := fun rs s => Counted s (rs ++ held) →
    Counted (giveUp rs s) held ∧ (giveUp rs s).underflow = s.underflow)
  · intro s h
    rw [giveUp_nil]
    exact ⟨h, rfl⟩
  · intro r rest s hr ih h
    rw [giveUp_constant hr]
    apply ih
    intro a
    have ha := h a
    rw [List.cons_append, List.count_cons_of_ne (hr a)] at ha
    exact ha
  · intro a rest s ha ih h
    have hlive := h.live (List.mem_cons_self : .node a ∈ .node a :: (rest ++ held))
    obtain ⟨c, hc⟩ := Arena.live_iff.mp hlive
    rw [hc] at ha
    cases ha
  · intro a rest s c ha hc ih h
    rw [giveUp_last ha hc]
    apply ih
    intro b
    have hb := h b
    have hrefs := refs_drop ha b
    rw [List.append_assoc, List.count_append]
    by_cases hba : b = a
    · -- the last reference was the one that is given up, so no node holds another one
      subst b
      rw [List.cons_append, List.count_cons_self, count_of_cell ha] at hb
      rw [count_of_gone (drop_cells_self s a)]
      omega
    · rw [List.cons_append, List.count_cons_of_ne (by simpa using Ne.symm hba)] at hb
      unfold JsonStore.count at hb ⊢
      rw [drop_cells_ne hba]
      omega
  · intro a rest s c ha hc ih h
    rw [giveUp_shared ha hc]
    apply ih
    intro b
    have hb := h b
    rw [refs_lower]
    by_cases hba : b = a
    · subst b
      rw [List.cons_append, List.count_cons_self, count_of_cell ha] at hb
      have hself : (s.lower a).nodes.cells a = some { c with refcount := c.refcount - 1 } := by
        rw [lower_cells_self, ha]
        rfl
      rw [count_of_cell hself]
      show c.refcount - 1 = _
      omega
    · rw [List.cons_append, List.count_cons_of_ne (by simpa using Ne.symm hba)] at hb
      unfold JsonStore.count at hb ⊢
      rw [lower_cells_ne hba]
      exact hb

/-- `json_decref` lowers the count of its argument by one. -/
theorem json_decref_count {s : JsonStore} {a : Nat} (ha : s.nodes.Live a) :
    (json_decref (some (.node a)) s).count a = s.count a - 1 := by
  obtain ⟨c, hc⟩ := Arena.live_iff.mp ha
  rw [json_decref_eq, Option.toList_some, count_of_cell hc]
  by_cases hle : c.refcount ≤ 1
  · rw [giveUp_last hc hle, count_of_gone (giveUp_stays_gone _ _ (drop_cells_self s a))]
    omega
  · have hself : (s.lower a).nodes.cells a = some { c with refcount := c.refcount - 1 } := by
      rw [lower_cells_self, hc]
      rfl
    rw [giveUp_shared hc hle, giveUp_nil, count_of_cell hself]

end jrpc.json

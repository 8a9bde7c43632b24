-- What the store of JSON nodes keeps: a reading does not change when the store grows, a
-- loaded value reads back as itself, and giving up a loaded value restores the store.
import Mathlib.Data.List.Forall2
import Jrpc.Json

open heap

namespace jrpc.json

/-! ## Single steps -/

@[simp] theorem readFuel_null (s : JsonStore) (n : Nat) : s.readFuel n .null = some .null := by
  cases n <;> rfl

@[simp] theorem readFuel_true (s : JsonStore) (n : Nat) : s.readFuel n .true = some .true := by
  cases n <;> rfl

@[simp] theorem readFuel_false (s : JsonStore) (n : Nat) :
    s.readFuel n .false = some .false := by
  cases n <;> rfl

theorem readFuel_node (s : JsonStore) (n a : Nat) :
    s.readFuel (n + 1) (.node a) =
      match s.nodes.cells a with
      | none => none
      | some c =>
        match c.node with
        | .integer i => some (.integer i)
        | .real b => some (.real b)
        | .string t => some (.string t)
        | .array rs => (rs.mapM (s.readFuel n)).map .array
        | .object ms =>
          (ms.mapM fun m => (s.readFuel n m.2).map fun v => (m.1, v)).map .object := rfl

@[simp] theorem new_next (s : JsonStore) (node : JsonNode) :
    (s.new node).1.nodes.next = s.nodes.next + 1 := rfl

@[simp] theorem new_underflow (s : JsonStore) (node : JsonNode) :
    (s.new node).1.underflow = s.underflow := rfl

@[simp] theorem new_ref (s : JsonStore) (node : JsonNode) :
    (s.new node).2 = .node s.nodes.next := rfl

@[simp] theorem new_cells_self (s : JsonStore) (node : JsonNode) :
    (s.new node).1.nodes.cells s.nodes.next = some ⟨1, node⟩ :=
  Arena.alloc_cells_next _ _

theorem new_cells_ne {s : JsonStore} {node : JsonNode} {a : Nat} (ha : a ≠ s.nodes.next) :
    (s.new node).1.nodes.cells a = s.nodes.cells a :=
  Arena.alloc_cells_ne ha

/-- Stores with the same cells and the same flag are the same store. -/
theorem store_ext {s t : JsonStore} (hc : ∀ a, s.nodes.cells a = t.nodes.cells a)
    (hu : s.underflow = t.underflow) : s = t := by
  obtain ⟨p, u⟩ := s
  obtain ⟨q, v⟩ := t
  have hpq : p = q := Pool.ext_cells hc
  simp only at hu
  rw [hpq, hu]

/-! ## Readings in a larger store -/

theorem mapM_some_mono {α β : Type} {f g : α → Option β} {l : List α} {ys : List β}
    (h : ∀ x ∈ l, ∀ y, f x = some y → g x = some y) (hl : l.mapM f = some ys) :
    l.mapM g = some ys := by
  induction l generalizing ys with
  | nil => exact hl
  | cons x l ih =>
    simp only [List.mapM_cons, Option.bind_eq_bind, Option.pure_def,
      Option.bind_eq_some_iff] at hl ⊢
    obtain ⟨y, hy, zs, hzs, he⟩ := hl
    refine ⟨y, h x List.mem_cons_self y hy, zs, ?_, he⟩
    exact ih (fun z hz => h z (List.mem_cons_of_mem x hz)) hzs

theorem mapM_some_forall₂ {α β : Type} {f : α → Option β} {l : List α} {ys : List β}
    (h : l.mapM f = some ys) : List.Forall₂ (fun x y => f x = some y) l ys := by
  induction l generalizing ys with
  | nil =>
    cases h
    exact .nil
  | cons x l ih =>
    simp only [List.mapM_cons, Option.bind_eq_bind, Option.pure_def,
      Option.bind_eq_some_iff] at h
    obtain ⟨y, hy, zs, hzs, he⟩ := h
    cases he
    exact .cons hy (ih hzs)

/-- Every node of the first store is in the second one. Its count may differ. -/
def Extends (s t : JsonStore) : Prop :=
  ∀ a c, s.nodes.cells a = some c → ∃ n, t.nodes.cells a = some ⟨n, c.node⟩

theorem readFuel_mono {s t : JsonStore} (hst : Extends s t) {n m : Nat} (hnm : n ≤ m)
    {r : JsonRef} {v : Json} (h : s.readFuel n r = some v) : t.readFuel m r = some v := by
  induction n generalizing m r v with
  | zero =>
    cases r with
    | node a => simp [JsonStore.readFuel] at h
    | _ => simpa using h
  | succ n ih =>
    obtain ⟨k, rfl⟩ : ∃ k, m = k + 1 := ⟨m - 1, by omega⟩
    have hk : n ≤ k := by omega
    cases r with
    | node a =>
      rw [readFuel_node] at h ⊢
      rcases hc : s.nodes.cells a with _ | ⟨rc, node⟩
      · simp [hc] at h
      · obtain ⟨rc', hc'⟩ := hst a _ hc
        simp only [hc, hc'] at h ⊢
        cases node with
        | array rs =>
          simp only [Option.map_eq_some_iff] at h ⊢
          obtain ⟨vs, hvs, rfl⟩ := h
          exact ⟨vs, mapM_some_mono (fun r _ v hv => ih hk hv) hvs, rfl⟩
        | object ms =>
          simp only [Option.map_eq_some_iff] at h ⊢
          obtain ⟨vs, hvs, rfl⟩ := h
          refine ⟨vs, mapM_some_mono (fun p _ q hq => ?_) hvs, rfl⟩
          simp only [Option.map_eq_some_iff] at hq ⊢
          obtain ⟨v, hv, rfl⟩ := hq
          exact ⟨v, ih hk hv, rfl⟩
        | _ => exact h
    | _ => simpa using h

/-- An object is read member by member. -/
theorem readFuel_object {s : JsonStore} {a n k : Nat} {ms : List (String × JsonRef)} {v : Json}
    (ha : s.nodes.cells a = some ⟨k, .object ms⟩) (h : s.readFuel (n + 1) (.node a) = some v) :
    ∃ vs, v = .object vs ∧
      List.Forall₂ (fun m p => p.1 = m.1 ∧ s.readFuel n m.2 = some p.2) ms vs := by
  rw [readFuel_node, ha] at h
  simp only [Option.map_eq_some_iff] at h
  obtain ⟨vs, hvs, rfl⟩ := h
  refine ⟨vs, rfl, (mapM_some_forall₂ hvs).imp fun m p hp => ?_⟩
  rw [Option.map_eq_some_iff] at hp
  obtain ⟨v, hv, rfl⟩ := hp
  exact ⟨rfl, hv⟩

theorem node?_of_cell {s : JsonStore} {a k : Nat} {node : JsonNode}
    (h : s.nodes.cells a = some ⟨k, node⟩) : s.node? (.node a) = some node := by
  simp [JsonStore.node?, h]

/-- The store grew, and no cell that was there before was touched. -/
structure Grown (s t : JsonStore) : Prop where
  next_le : s.nodes.next ≤ t.nodes.next
  underflow : t.underflow = s.underflow
  same : ∀ a < s.nodes.next, t.nodes.cells a = s.nodes.cells a

theorem Grown.refl (s : JsonStore) : Grown s s := ⟨Nat.le_refl _, rfl, fun _ _ => rfl⟩

theorem Grown.trans {s t u : JsonStore} (h1 : Grown s t) (h2 : Grown t u) : Grown s u where
  next_le := Nat.le_trans h1.next_le h2.next_le
  underflow := h2.underflow.trans h1.underflow
  same a ha := (h2.same a (Nat.lt_of_lt_of_le ha h1.next_le)).trans (h1.same a ha)

theorem grown_new (s : JsonStore) (node : JsonNode) : Grown s (s.new node).1 where
  next_le := by simp
  underflow := rfl
  same a ha := new_cells_ne (Nat.ne_of_lt ha)

theorem Grown.extends {s t : JsonStore} (h : Grown s t) : Extends s t := by
  intro a c hc
  refine ⟨c.refcount, ?_⟩
  rw [h.same a (Arena.lt_next_of_cell hc), hc]

/-! ## A loaded value reads back -/

mutual

theorem grown_load : ∀ (v : Json) (s : JsonStore), Grown s (load v s).1
  | .null, s => .refl s
  | .true, s => .refl s
  | .false, s => .refl s
  | .integer _, s => grown_new s _
  | .real _, s => grown_new s _
  | .string _, s => grown_new s _
  | .array vs, s => (grown_loadList vs s).trans (grown_new _ _)
  | .object ms, s => (grown_loadMembers ms s).trans (grown_new _ _)

theorem grown_loadList : ∀ (vs : List Json) (s : JsonStore), Grown s (loadList vs s).1
  | [], s => .refl s
  | v :: vs, s => (grown_load v s).trans (grown_loadList vs _)

theorem grown_loadMembers :
    ∀ (ms : List (String × Json)) (s : JsonStore), Grown s (loadMembers ms s).1
  | [], s => .refl s
  | (_, v) :: ms, s => (grown_load v s).trans (grown_loadMembers ms _)

end

mutual

theorem readFuel_load : ∀ (v : Json) (s : JsonStore),
    (load v s).1.readFuel (load v s).1.nodes.next (load v s).2 = some v
  | .null, s => readFuel_null _ _
  | .true, s => readFuel_true _ _
  | .false, s => readFuel_false _ _
  | .integer i, s => by simp [load, readFuel_node]
  | .real b, s => by simp [load, readFuel_node]
  | .string t, s => by simp [load, readFuel_node]
  | .array vs, s => by
    have hvs := readFuel_loadList vs s
    simp only [load, new_next, new_ref, readFuel_node, new_cells_self,
      Option.map_eq_some_iff]
    refine ⟨vs, mapM_some_mono (fun r _ v hv => ?_) hvs, rfl⟩
    exact readFuel_mono (grown_new _ _).extends (Nat.le_refl _) hv
  | .object ms, s => by
    have hms := readFuel_loadMembers ms s
    simp only [load, new_next, new_ref, readFuel_node, new_cells_self,
      Option.map_eq_some_iff]
    refine ⟨ms, mapM_some_mono (fun p _ q hq => ?_) hms, rfl⟩
    simp only [Option.map_eq_some_iff] at hq ⊢
    obtain ⟨v, hv, rfl⟩ := hq
    exact ⟨v, readFuel_mono (grown_new _ _).extends (Nat.le_refl _) hv, rfl⟩

theorem readFuel_loadList : ∀ (vs : List Json) (s : JsonStore),
    (loadList vs s).2.mapM ((loadList vs s).1.readFuel (loadList vs s).1.nodes.next) = some vs
  | [], s => rfl
  | v :: vs, s => by
    have hv := readFuel_load v s
    have hvs := readFuel_loadList vs (load v s).1
    have hg := grown_loadList vs (load v s).1
    simp only [loadList, List.mapM_cons, Option.bind_eq_bind, Option.pure_def,
      Option.bind_eq_some_iff]
    exact ⟨v, readFuel_mono hg.extends hg.next_le hv, vs, hvs, rfl⟩

theorem readFuel_loadMembers : ∀ (ms : List (String × Json)) (s : JsonStore),
    ((loadMembers ms s).2.mapM fun m =>
      ((loadMembers ms s).1.readFuel (loadMembers ms s).1.nodes.next m.2).map
        fun v => (m.1, v)) = some ms
  | [], s => rfl
  | (k, v) :: ms, s => by
    have hv := readFuel_load v s
    have hms := readFuel_loadMembers ms (load v s).1
    have hg := grown_loadMembers ms (load v s).1
    simp only [loadMembers, List.mapM_cons, Option.bind_eq_bind, Option.pure_def,
      Option.bind_eq_some_iff, Option.map_eq_some_iff]
    exact ⟨(k, v), ⟨v, readFuel_mono hg.extends hg.next_le hv, rfl⟩, ms, hms, rfl⟩

end

/-- A loaded value reads back as itself. -/
theorem read_load (v : Json) (s : JsonStore) : (load v s).1.read (load v s).2 = some v :=
  readFuel_mono (Grown.refl _).extends (Nat.le_succ _) (readFuel_load v s)

/-! ## A loaded value that is given up

A loaded value has the addresses from `next` of the store before to `next` of the store
after. The nodes are given up from the root down, while the nodes of other values may lie
above and below, so the lemmas speak of a store `t` that is only alike on these addresses. -/

mutual

/-- The number of references of a loaded value, with the one to its root. -/
def size : Json → Nat
  | .array vs => 1 + sizeList vs
  | .object ms => 1 + sizeMembers ms
  | _ => 1

def sizeList : List Json → Nat
  | [] => 0
  | v :: vs => size v + sizeList vs

def sizeMembers : List (String × Json) → Nat
  | [] => 0
  | (_, v) :: ms => size v + sizeMembers ms

end

/-- The cells from `lo` up to `hi` are gone, and nothing else changed. -/
structure Cleared (lo hi : Nat) (t t' : JsonStore) : Prop where
  cells : ∀ a, t'.nodes.cells a = if lo ≤ a ∧ a < hi then none else t.nodes.cells a
  underflow : t'.underflow = t.underflow

theorem Cleared.refl (lo : Nat) (t : JsonStore) : Cleared lo lo t t :=
  ⟨fun a => by rw [if_neg (by omega)], rfl⟩

theorem Cleared.trans {lo mid hi : Nat} {t t1 t2 : JsonStore} (h1 : Cleared lo mid t t1)
    (h2 : Cleared mid hi t1 t2) (hlo : lo ≤ mid) (hhi : mid ≤ hi) : Cleared lo hi t t2 := by
  refine ⟨fun a => ?_, h2.underflow.trans h1.underflow⟩
  rw [h2.cells, h1.cells]
  split_ifs <;> first | rfl | omega

/-- The store agrees with a second one from `lo` up to `hi`. -/
def Agrees (lo hi : Nat) (t s : JsonStore) : Prop :=
  ∀ a, lo ≤ a → a < hi → t.nodes.cells a = s.nodes.cells a

/-- What giving up looks at in a cell: its count, and the references that it holds. -/
def JsonCell.shape (c : JsonCell) : Nat × List JsonRef := (c.refcount, c.node.children)

/-- The store has the same counts and references as a second one from `lo` up to `hi`. -/
def Alike (lo hi : Nat) (t s : JsonStore) : Prop :=
  ∀ a, lo ≤ a → a < hi →
    (t.nodes.cells a).map JsonCell.shape = (s.nodes.cells a).map JsonCell.shape

theorem Agrees.alike {lo hi : Nat} {t s : JsonStore} (h : Agrees lo hi t s) :
    Alike lo hi t s := by
  intro a hlo hhi
  rw [h a hlo hhi]

theorem Alike.trans {lo hi : Nat} {t s u : JsonStore} (h1 : Alike lo hi t s)
    (h2 : Alike lo hi s u) : Alike lo hi t u := by
  intro a hlo hhi
  rw [h1 a hlo hhi, h2 a hlo hhi]

theorem Alike.mono {lo hi lo' hi' : Nat} {t s : JsonStore} (h : Alike lo hi t s)
    (hlo : lo ≤ lo') (hhi : hi' ≤ hi) : Alike lo' hi' t s :=
  fun a h1 h2 => h a (Nat.le_trans hlo h1) (Nat.lt_of_lt_of_le h2 hhi)

/-- A cell and the one that it is like. -/
theorem Alike.cell {lo hi : Nat} {t s : JsonStore} (h : Alike lo hi t s) {a : Nat}
    (hlo : lo ≤ a) (hhi : a < hi) {node : JsonNode} (hs : s.nodes.cells a = some ⟨1, node⟩) :
    ∃ node', t.nodes.cells a = some ⟨1, node'⟩ ∧ node'.children = node.children := by
  have hshape := h a hlo hhi
  rw [hs, Option.map_some, Option.map_eq_some_iff] at hshape
  obtain ⟨⟨n, node'⟩, hcell, he⟩ := hshape
  obtain ⟨rfl, hchildren⟩ := Prod.mk.inj he
  exact ⟨node', hcell, hchildren⟩

theorem Grown.agrees {s t : JsonStore} (h : Grown s t) (lo : Nat) :
    Agrees lo s.nodes.next t s := fun a _ ha => h.same a ha

theorem Cleared.agrees {lo mid hi : Nat} {t t' : JsonStore} (h : Cleared lo mid t t') :
    Agrees mid hi t' t := by
  intro a h1 h2
  rw [h.cells, if_neg (by omega)]

/-- The turn that gives up the root of a value with one reference. -/
theorem decref_root {t : JsonStore} {a : Nat} {node : JsonNode}
    (ha : t.nodes.cells a = some ⟨1, node⟩) (n : Nat) (rest : List JsonRef) :
    ∃ t1, Cleared a (a + 1) t t1 ∧
      decrefFuel (n + 1) (.node a :: rest) t = decrefFuel n (node.children ++ rest) t1 := by
  refine ⟨{ t with nodes := t.nodes.free a }, ⟨fun b => ?_, rfl⟩, ?_⟩
  · rw [Pool.free_cells]
    by_cases hb : b = a
    · subst b
      rw [Arena.free_cells_self, if_pos (by omega)]
    · rw [Arena.free_cells_ne hb, if_neg (by omega)]
  · simp [decrefFuel, ha]

theorem decref_leaf {s t : JsonStore} {node : JsonNode} (hc : node.children = [])
    (hag : Alike s.nodes.next (s.nodes.next + 1) t (s.new node).1) (n : Nat)
    (rest : List JsonRef) :
    ∃ t', Cleared s.nodes.next (s.nodes.next + 1) t t' ∧
      decrefFuel (n + 1) (.node s.nodes.next :: rest) t = decrefFuel n rest t' := by
  obtain ⟨node', hcell, hchildren⟩ :=
    hag.cell (Nat.le_refl _) (by omega) (new_cells_self s node)
  obtain ⟨t1, h1, hd⟩ := decref_root hcell n rest
  rw [hchildren, hc] at hd
  exact ⟨t1, h1, hd⟩

/-- The root is given up first, and then the values below it. -/
theorem decref_below {s1 t : JsonStore} {lo : Nat} {node : JsonNode} {k : Nat}
    (hlo : lo ≤ s1.nodes.next) (hag : Alike lo (s1.nodes.next + 1) t (s1.new node).1)
    (hbelow : ∀ (t : JsonStore) (n : Nat) (rest : List JsonRef), Alike lo s1.nodes.next t s1 →
      ∃ t', Cleared lo s1.nodes.next t t' ∧
        decrefFuel (n + k) (node.children ++ rest) t = decrefFuel n rest t')
    (n : Nat) (rest : List JsonRef) :
    ∃ t', Cleared lo (s1.nodes.next + 1) t t' ∧
      decrefFuel (n + (1 + k)) (.node s1.nodes.next :: rest) t = decrefFuel n rest t' := by
  obtain ⟨node', hroot, hchildren⟩ := hag.cell hlo (by omega) (new_cells_self s1 node)
  obtain ⟨t1, h1, hd1⟩ := decref_root hroot (n + k) rest
  rw [hchildren] at hd1
  have hag1 : Alike lo s1.nodes.next t1 s1 := by
    intro a h2 h3
    rw [h1.cells, if_neg (by omega), hag a h2 (by omega), new_cells_ne (by omega)]
  obtain ⟨t2, h2, hd2⟩ := hbelow t1 n rest hag1
  refine ⟨t2, ⟨fun a => ?_, h2.underflow.trans h1.underflow⟩, ?_⟩
  · rw [h2.cells, h1.cells]
    split_ifs <;> first | rfl | omega
  · rw [show n + (1 + k) = n + k + 1 by omega, hd1, hd2]

mutual

theorem decref_load : ∀ (v : Json) (s t : JsonStore) (n : Nat) (rest : List JsonRef),
    Alike s.nodes.next (load v s).1.nodes.next t (load v s).1 →
    ∃ t', Cleared s.nodes.next (load v s).1.nodes.next t t' ∧
      decrefFuel (n + size v) ((load v s).2 :: rest) t = decrefFuel n rest t'
  | .null, _, t, _, _, _ => ⟨t, .refl _ t, rfl⟩
  | .true, _, t, _, _, _ => ⟨t, .refl _ t, rfl⟩
  | .false, _, t, _, _, _ => ⟨t, .refl _ t, rfl⟩
  | .integer _, _, _, n, rest, hag => decref_leaf rfl hag n rest
  | .real _, _, _, n, rest, hag => decref_leaf rfl hag n rest
  | .string _, _, _, n, rest, hag => decref_leaf rfl hag n rest
  | .array vs, s, _, n, rest, hag =>
    decref_below (grown_loadList vs s).next_le hag
      (fun t n rest h => decref_loadList vs s t n rest h) n rest
  | .object ms, s, _, n, rest, hag =>
    decref_below (grown_loadMembers ms s).next_le hag
      (fun t n rest h => decref_loadMembers ms s t n rest h) n rest

theorem decref_loadList : ∀ (vs : List Json) (s t : JsonStore) (n : Nat) (rest : List JsonRef),
    Alike s.nodes.next (loadList vs s).1.nodes.next t (loadList vs s).1 →
    ∃ t', Cleared s.nodes.next (loadList vs s).1.nodes.next t t' ∧
      decrefFuel (n + sizeList vs) ((loadList vs s).2 ++ rest) t = decrefFuel n rest t'
  | [], _, t, _, _, _ => ⟨t, .refl _ t, rfl⟩
  | v :: vs, s, t, n, rest, hag => by
    have hg := grown_load v s
    have hg' := grown_loadList vs (load v s).1
    obtain ⟨t1, h1, hd1⟩ := decref_load v s t (n + sizeList vs)
      ((loadList vs (load v s).1).2 ++ rest)
      ((hag.mono (Nat.le_refl _) hg'.next_le).trans (hg'.agrees _).alike)
    obtain ⟨t2, h2, hd2⟩ := decref_loadList vs (load v s).1 t1 n rest
      (h1.agrees.alike.trans (hag.mono hg.next_le (Nat.le_refl _)))
    refine ⟨t2, h1.trans h2 hg.next_le hg'.next_le, ?_⟩
    rw [show n + sizeList (v :: vs) = n + sizeList vs + size v by simp [sizeList]; omega]
    exact hd1.trans hd2

theorem decref_loadMembers :
    ∀ (ms : List (String × Json)) (s t : JsonStore) (n : Nat) (rest : List JsonRef),
    Alike s.nodes.next (loadMembers ms s).1.nodes.next t (loadMembers ms s).1 →
    ∃ t', Cleared s.nodes.next (loadMembers ms s).1.nodes.next t t' ∧
      decrefFuel (n + sizeMembers ms) ((loadMembers ms s).2.map (·.2) ++ rest) t =
        decrefFuel n rest t'
  | [], _, t, _, _, _ => ⟨t, .refl _ t, rfl⟩
  | (k, v) :: ms, s, t, n, rest, hag => by
    have hg := grown_load v s
    have hg' := grown_loadMembers ms (load v s).1
    obtain ⟨t1, h1, hd1⟩ := decref_load v s t (n + sizeMembers ms)
      ((loadMembers ms (load v s).1).2.map (·.2) ++ rest)
      ((hag.mono (Nat.le_refl _) hg'.next_le).trans (hg'.agrees _).alike)
    obtain ⟨t2, h2, hd2⟩ := decref_loadMembers ms (load v s).1 t1 n rest
      (h1.agrees.alike.trans (hag.mono hg.next_le (Nat.le_refl _)))
    refine ⟨t2, h1.trans h2 hg.next_le hg'.next_le, ?_⟩
    rw [show n + sizeMembers ((k, v) :: ms) = n + sizeMembers ms + size v by
      simp [sizeMembers]; omega]
    exact hd1.trans hd2

end

/-! ## The turns of `json_decref` suffice -/

theorem linksBelow_congr {s t : JsonStore} (n : Nat)
    (h : ∀ a < n, t.nodes.cells a = s.nodes.cells a) : linksBelow t n = linksBelow s n := by
  induction n with
  | zero => rfl
  | succ n ih =>
    have hn : t.childrenAt n = s.childrenAt n := by
      unfold JsonStore.childrenAt
      rw [h n (Nat.lt_succ_self n)]
    rw [linksBelow, linksBelow, hn, ih (fun a ha => h a (by omega))]

theorem linksBelow_new (s : JsonStore) (node : JsonNode) :
    linksBelow (s.new node).1 (s.new node).1.nodes.next =
      linksBelow s s.nodes.next + node.children.length := by
  rw [new_next, linksBelow, linksBelow_congr _ (fun a ha => (grown_new s node).same a ha)]
  simp [JsonStore.childrenAt]

mutual

theorem links_load : ∀ (v : Json) (s : JsonStore),
    linksBelow (load v s).1 (load v s).1.nodes.next + 1 = linksBelow s s.nodes.next + size v
  | .null, s => rfl
  | .true, s => rfl
  | .false, s => rfl
  | .integer _, s => by rw [load, linksBelow_new]; simp [size, JsonNode.children]
  | .real _, s => by rw [load, linksBelow_new]; simp [size, JsonNode.children]
  | .string _, s => by rw [load, linksBelow_new]; simp [size, JsonNode.children]
  | .array vs, s => by
    have h := links_loadList vs s
    rw [load, linksBelow_new]
    simp only [JsonNode.children, size]
    omega
  | .object ms, s => by
    have h := links_loadMembers ms s
    rw [load, linksBelow_new]
    simp only [JsonNode.children, size, List.length_map]
    omega

theorem links_loadList : ∀ (vs : List Json) (s : JsonStore),
    linksBelow (loadList vs s).1 (loadList vs s).1.nodes.next + (loadList vs s).2.length =
      linksBelow s s.nodes.next + sizeList vs
  | [], s => rfl
  | v :: vs, s => by
    have h1 := links_load v s
    have h2 := links_loadList vs (load v s).1
    simp only [loadList, sizeList, List.length_cons]
    omega

theorem links_loadMembers : ∀ (ms : List (String × Json)) (s : JsonStore),
    linksBelow (loadMembers ms s).1 (loadMembers ms s).1.nodes.next +
        (loadMembers ms s).2.length = linksBelow s s.nodes.next + sizeMembers ms
  | [], s => rfl
  | (_, v) :: ms, s => by
    have h1 := links_load v s
    have h2 := links_loadMembers ms (load v s).1
    simp only [loadMembers, sizeMembers, List.length_cons]
    omega

end

theorem decrefFuel_nil (n : Nat) (s : JsonStore) : decrefFuel n [] s = s := by
  cases n <;> rfl

/-- A loaded value that is given up leaves the store as it was before the load. -/
theorem json_decref_load (v : Json) (s : JsonStore) :
    json_decref (some (load v s).2) (load v s).1 = s := by
  have hg := grown_load v s
  obtain ⟨t, ht, hd⟩ := decref_load v s (load v s).1 (linksBelow s s.nodes.next) []
    (fun _ _ _ => rfl)
  unfold json_decref
  simp only
  rw [links_load, hd, decrefFuel_nil]
  refine store_ext (fun a => ?_) (ht.underflow.trans hg.underflow)
  rw [ht.cells]
  split
  · rename_i ha
    exact (s.nodes.bounded a ha.1).symm
  · rename_i ha
    by_cases hlt : a < s.nodes.next
    · exact hg.same a hlt
    · rw [s.nodes.bounded a (by omega)]
      exact (load v s).1.nodes.bounded a (by omega)

end jrpc.json

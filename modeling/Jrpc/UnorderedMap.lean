-- A map that is walked through in an order that nobody promises. An insertion may put all
-- entries into another order, and an erasure keeps the order of what is left. No key has two
-- entries, so what is found under a key does not depend on the order.
import Mathlib.Data.List.Nodup
import Mathlib.Data.List.Perm.Basic

namespace unordered

variable {κ ν : Type}

/-- The order of the entries after each insertion. -/
structure Hashing (κ ν : Type) where
  arrange : Nat → List (κ × ν) → List (κ × ν)
  perm : ∀ n l, (arrange n l).Perm l

/-- The entries, in the order in which a walk meets them, and the number of insertions. -/
structure UnorderedMap (κ ν : Type) where
  entries : List (κ × ν)
  insertions : Nat
  distinct : (entries.map Prod.fst).Nodup

namespace UnorderedMap

def empty : UnorderedMap κ ν := ⟨[], 0, List.nodup_nil⟩

/-- The keys, in the order of the walk. -/
def keys (m : UnorderedMap κ ν) : List κ := m.entries.map Prod.fst

theorem arranged_distinct (h : Hashing κ ν) {m : UnorderedMap κ ν} {k : κ} (v : ν)
    (hk : k ∉ m.keys) :
    ((h.arrange m.insertions ((k, v) :: m.entries)).map Prod.fst).Nodup := by
  have hperm := (h.perm m.insertions ((k, v) :: m.entries)).map Prod.fst
  exact hperm.nodup_iff.mpr (List.nodup_cons.mpr ⟨hk, m.distinct⟩)

theorem map_fst_eq {f : κ × ν → κ × ν} (hf : ∀ e, (f e).1 = e.1) (l : List (κ × ν)) :
    (l.map f).map Prod.fst = l.map Prod.fst := by
  rw [List.map_map]
  exact List.map_congr_left fun e _ => hf e

variable [DecidableEq κ]

def find (m : UnorderedMap κ ν) (k : κ) : Option ν := m.entries.lookup k

/-- A key that has an entry keeps it. -/
def insert (h : Hashing κ ν) (k : κ) (v : ν) (m : UnorderedMap κ ν) : UnorderedMap κ ν :=
  if hk : k ∈ m.keys then m
  else
    { entries := h.arrange m.insertions ((k, v) :: m.entries)
      insertions := m.insertions + 1
      distinct := arranged_distinct h v hk }

def erase (k : κ) (m : UnorderedMap κ ν) : UnorderedMap κ ν where
  entries := m.entries.filter fun e => e.1 ≠ k
  insertions := m.insertions
  distinct := (List.filter_sublist.map Prod.fst).nodup m.distinct

/-- A change of the value of one entry, in its place. -/
def modifyEntry (k : κ) (f : ν → ν) (e : κ × ν) : κ × ν := if e.1 = k then (e.1, f e.2) else e

theorem modifyEntry_fst (k : κ) (f : ν → ν) (e : κ × ν) : (modifyEntry k f e).1 = e.1 := by
  unfold modifyEntry
  split <;> rfl

/-- A change of a value through a reference to its entry. -/
def modify (k : κ) (f : ν → ν) (m : UnorderedMap κ ν) : UnorderedMap κ ν where
  entries := m.entries.map (modifyEntry k f)
  insertions := m.insertions
  distinct := by
    rw [map_fst_eq (modifyEntry_fst k f)]
    exact m.distinct

/-! ## What is found under a key -/

theorem lookup_iff {l : List (κ × ν)} (hl : (l.map Prod.fst).Nodup) {k : κ} {v : ν} :
    l.lookup k = some v ↔ (k, v) ∈ l := by
  induction l with
  | nil => simp
  | cons e l ih =>
    obtain ⟨j, u⟩ := e
    obtain ⟨hj, hl⟩ := List.nodup_cons.mp hl
    rw [List.lookup_cons, List.mem_cons]
    by_cases hk : k = j
    · subst k
      have hnot : (j, v) ∉ l := fun hm => hj (List.mem_map.mpr ⟨_, hm, rfl⟩)
      simp [hnot, eq_comm]
    · rw [beq_false_of_ne hk]
      simp [hk, ih hl]

theorem find_iff {m : UnorderedMap κ ν} {k : κ} {v : ν} :
    m.find k = some v ↔ (k, v) ∈ m.entries := lookup_iff m.distinct

theorem find_none {m : UnorderedMap κ ν} {k : κ} : m.find k = none ↔ k ∉ m.keys := by
  rw [Option.eq_none_iff_forall_ne_some]
  constructor
  · intro h hk
    obtain ⟨⟨j, v⟩, he, rfl⟩ := List.mem_map.mp hk
    exact h v (find_iff.mpr he)
  · intro h v hv
    exact h (List.mem_map_of_mem (find_iff.mp hv))

/-- An inserted entry is found, and every other key has what it had. -/
theorem find_insert (h : Hashing κ ν) {m : UnorderedMap κ ν} {k : κ} (v : ν)
    (hk : m.find k = none) (j : κ) :
    (m.insert h k v).find j = if j = k then some v else m.find j := by
  have hnot := find_none.mp hk
  have hmem : ∀ u, (m.insert h k v).find j = some u ↔ (j, u) = (k, v) ∨ m.find j = some u := by
    intro u
    rw [find_iff, find_iff]
    unfold insert
    rw [dif_neg hnot]
    exact (h.perm _ _).mem_iff.trans List.mem_cons
  apply Option.ext
  intro u
  rw [hmem]
  by_cases hj : j = k
  · subst j
    simp [hk, eq_comm]
  · simp [hj]

theorem find_erase (m : UnorderedMap κ ν) (k j : κ) :
    (m.erase k).find j = if j = k then none else m.find j := by
  apply Option.ext
  intro u
  rw [find_iff]
  unfold erase
  rw [List.mem_filter]
  by_cases hj : j = k
  · simp [hj]
  · simp [hj, find_iff]

theorem find_modify (m : UnorderedMap κ ν) (k : κ) (f : ν → ν) (j : κ) :
    (m.modify k f).find j = if j = k then (m.find j).map f else m.find j := by
  apply Option.ext
  intro u
  rw [find_iff]
  unfold modify modifyEntry
  rw [List.mem_map]
  constructor
  · rintro ⟨⟨i, v⟩, he, heq⟩
    have hi : m.find i = some v := find_iff.mpr he
    by_cases hik : i = k
    · rw [if_pos hik] at heq
      cases heq
      rw [if_pos hik, hi, Option.map_some]
    · rw [if_neg hik] at heq
      cases heq
      rw [if_neg hik, hi]
  · intro hu
    by_cases hjk : j = k
    · rw [if_pos hjk, Option.map_eq_some_iff] at hu
      obtain ⟨v, hv, rfl⟩ := hu
      exact ⟨(j, v), find_iff.mp hv, if_pos hjk⟩
    · rw [if_neg hjk] at hu
      exact ⟨(j, u), find_iff.mp hu, if_neg hjk⟩

/-! ## A walk -/

/-- A walk meets a key once, if it has an entry, and not at all if it has none. -/
theorem walk_meets (m : UnorderedMap κ ν) (k : κ) :
    m.entries.filter (fun e => e.1 = k) = (m.find k).toList.map fun v => (k, v) := by
  rcases hk : m.find k with _ | v
  · apply List.filter_eq_nil_iff.mpr
    intro e he
    have hne : e.1 ≠ k := by
      rintro rfl
      exact find_none.mp hk (List.mem_map_of_mem he)
    simpa using hne
  · have hmem := find_iff.mp hk
    obtain ⟨before, after, hsplit⟩ := List.append_of_mem hmem
    have hdistinct := m.distinct
    rw [hsplit, List.map_append, List.map_cons, List.nodup_append] at hdistinct
    obtain ⟨_, hafter, hapart⟩ := hdistinct
    have hnone : ∀ l : List (κ × ν), k ∉ l.map Prod.fst → l.filter (fun e => e.1 = k) = [] := by
      intro l hl
      apply List.filter_eq_nil_iff.mpr
      rintro e he
      have hne : e.1 ≠ k := by
        rintro rfl
        exact hl (List.mem_map_of_mem he)
      simpa using hne
    have hbefore : k ∉ before.map Prod.fst :=
      fun hk' => hapart k hk' k List.mem_cons_self rfl
    rw [hsplit, List.filter_append, List.filter_cons_of_pos (by simp), hnone _ hbefore,
      hnone _ (List.nodup_cons.mp hafter).1]
    rfl

end UnorderedMap

end unordered

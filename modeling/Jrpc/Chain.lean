-- Linked chains that end in a null pointer. `next a = some p` says that the node `a`
-- is live and that its link is `p`. The links decide the nodes of a chain, so a chain
-- visits no node twice, and it stays a chain when no link of its nodes changes.
import Mathlib.Data.List.Chain
import Mathlib.Data.List.Perm.Subperm
import Mathlib.Logic.Relation

namespace chain

variable {α : Type}

/-- Following the links from `p` visits the nodes of the list, in order, and ends. -/
def Chain (next : α → Option (Option α)) : Option α → List α → Prop
  | p, [] => p = none
  | p, a :: l => p = some a ∧ ∃ q, next a = some q ∧ Chain next q l

theorem Chain.head {next : α → Option (Option α)} {p : Option α} {l : List α}
    (h : Chain next p l) : p = l.head? := by
  cases l with
  | nil => exact h
  | cons a l => exact h.1

/-- A null pointer starts the empty chain only. -/
theorem chain_none {next : α → Option (Option α)} {l : List α} :
    Chain next none l ↔ l = [] := by
  cases l with
  | nil => simp [Chain]
  | cons a l => simp [Chain]

theorem chain_some {next : α → Option (Option α)} {a : α} {l : List α} :
    Chain next (some a) l ↔ ∃ l' q, l = a :: l' ∧ next a = some q ∧ Chain next q l' := by
  cases l with
  | nil => simp [Chain]
  | cons b l =>
    simp only [Chain, Option.some.injEq, List.cons.injEq]
    constructor
    · rintro ⟨rfl, q, h1, h2⟩
      exact ⟨l, q, ⟨rfl, rfl⟩, h1, h2⟩
    · rintro ⟨l', q, ⟨rfl, rfl⟩, h1, h2⟩
      exact ⟨rfl, q, h1, h2⟩

/-- Each node of a chain is live. -/
theorem Chain.live {next : α → Option (Option α)} {p : Option α} {l : List α}
    (h : Chain next p l) : ∀ a ∈ l, ∃ q, next a = some q := by
  induction l generalizing p with
  | nil => simp
  | cons b l ih =>
    obtain ⟨_, q, hq, hl⟩ := h
    intro a ha
    rcases List.mem_cons.mp ha with rfl | ha
    · exact ⟨q, hq⟩
    · exact ih hl a ha

/-- The first pointer and the links decide the list. -/
theorem Chain.unique {next : α → Option (Option α)} {p : Option α} {l l' : List α}
    (h : Chain next p l) (h' : Chain next p l') : l = l' := by
  induction l generalizing p l' with
  | nil =>
    cases h
    exact (chain_none.mp h').symm
  | cons a l ih =>
    obtain ⟨rfl, q, hq, hl⟩ := h
    obtain ⟨l2, q', rfl, hq', hl'⟩ := chain_some.mp h'
    rw [hq] at hq'
    cases hq'
    rw [ih hl hl']

/-- A chain does not change when no link of its nodes does. -/
theorem Chain.congr {next next' : α → Option (Option α)} {p : Option α} {l : List α}
    (h : Chain next p l) (hsame : ∀ a ∈ l, next' a = next a) : Chain next' p l := by
  induction l generalizing p with
  | nil => exact h
  | cons a l ih =>
    obtain ⟨rfl, q, hq, hl⟩ := h
    refine ⟨rfl, q, ?_, ih hl (fun b hb => hsame b (List.mem_cons_of_mem a hb))⟩
    rw [hsame a List.mem_cons_self, hq]

/-- The end of a chain is the chain of its first node. -/
theorem Chain.suffix {next : α → Option (Option α)} {p : Option α} {u v : List α} {a : α}
    (h : Chain next p (u ++ a :: v)) : Chain next (some a) (a :: v) := by
  induction u generalizing p with
  | nil =>
    obtain ⟨rfl, hq⟩ := h
    exact ⟨rfl, hq⟩
  | cons b u ih =>
    obtain ⟨_, q, _, hl⟩ := h
    exact ih hl

/-- A chain that ends visits no node twice. -/
theorem Chain.nodup {next : α → Option (Option α)} {p : Option α} {l : List α}
    (h : Chain next p l) : l.Nodup := by
  induction l generalizing p with
  | nil => exact List.nodup_nil
  | cons a l ih =>
    obtain ⟨rfl, q, hq, hl⟩ := h
    refine List.nodup_cons.mpr ⟨?_, ih hl⟩
    intro ha
    -- a second visit of `a` would start the whole chain again
    obtain ⟨u, v, rfl⟩ := List.append_of_mem ha
    have hagain : Chain next (some a) (a :: (u ++ a :: v)) := ⟨rfl, q, hq, hl⟩
    have heq := hagain.unique hl.suffix
    have := congrArg List.length heq
    simp at this
    omega

/-- A new last node: its link is null, and the link of the last node before it, if there
is one, points to it. -/
theorem Chain.snoc {next next' : α → Option (Option α)} {p : Option α} {l : List α} {m : α}
    (h : Chain next p l) (hm : next' m = some none)
    (hlast : ∀ z, l.getLast? = some z → next' z = some (some m))
    (hsame : ∀ a ∈ l, l.getLast? ≠ some a → next' a = next a) :
    Chain next' (l ++ [m]).head? (l ++ [m]) := by
  induction l generalizing p with
  | nil => exact ⟨rfl, none, hm, rfl⟩
  | cons a l ih =>
    have hnodup := h.nodup
    obtain ⟨rfl, q, hq, hl⟩ := h
    cases l with
    | nil => exact ⟨rfl, some m, hlast a rfl, rfl, none, hm, rfl⟩
    | cons b l =>
      have hgl : (a :: b :: l).getLast? = (b :: l).getLast? := by simp
      have hrest : Chain next' ((b :: l) ++ [m]).head? ((b :: l) ++ [m]) := by
        apply ih hl
        · intro z hz
          exact hlast z (hgl.trans hz)
        · intro x hx hne
          exact hsame x (List.mem_cons_of_mem a hx) (fun he => hne (hgl.symm.trans he))
      refine ⟨rfl, some b, ?_, hrest⟩
      rw [hsame a List.mem_cons_self, hq, hl.head]
      · rfl
      · intro he
        rw [hgl] at he
        exact (List.nodup_cons.mp hnodup).1 (List.mem_of_getLast? he)

/-! ## Long paths -/

/-- A path through more than `n` of the numbers below `n` passes one of them twice. -/
theorem exists_cycle {r : Nat → Nat → Prop} {n : Nat} {l : List Nat} (h : l.IsChain r)
    (hl : ∀ a ∈ l, a < n) (hn : n < l.length) : ∃ a ∈ l, Relation.TransGen r a a := by
  by_contra hnone
  have hpairs : l.Pairwise (Relation.TransGen r) :=
    List.isChain_iff_pairwise.mp (h.imp fun _ _ => Relation.TransGen.single)
  have hnodup : l.Nodup := by
    apply hpairs.imp_of_mem
    rintro a b ha _ hab rfl
    exact hnone ⟨a, ha, hab⟩
  have hrange : l ⊆ List.range n := fun a ha => List.mem_range.mpr (hl a ha)
  have hle := (List.subperm_of_subset hnodup hrange).length_le
  rw [List.length_range] at hle
  omega

/-- The start of a path reaches each of its nodes. -/
theorem reaches {r : Nat → Nat → Prop} {a b : Nat} {l : List Nat} (h : (a :: l).IsChain r)
    (hb : b ∈ a :: l) : Relation.ReflTransGen r a b := by
  have hpairs : (a :: l).Pairwise (Relation.TransGen r) :=
    List.isChain_iff_pairwise.mp (h.imp fun _ _ => Relation.TransGen.single)
  rcases List.mem_cons.mp hb with rfl | hb
  · exact .refl
  · exact ((List.pairwise_cons.mp hpairs).1 b hb).to_reflTransGen

end chain

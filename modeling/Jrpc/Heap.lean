-- Memory as a map from addresses to cells. An arena never gives an address out
-- twice, so a stale address is always seen. A pool gives back the addresses above
-- the highest live cell, so a pool is determined by its cells alone.
import Mathlib.Data.List.Basic

namespace heap

variable {α : Type}

/-- Cells by address. No address from `next` on is in use. -/
structure Arena (α : Type) where
  cells : Nat → Option α
  next : Nat
  bounded : ∀ a, next ≤ a → cells a = none

namespace Arena

def empty : Arena α := ⟨fun _ => none, 0, fun _ _ => rfl⟩

/-- A new cell at the address `next`. -/
def alloc (h : Arena α) (x : α) : Arena α where
  cells a := if a = h.next then some x else h.cells a
  next := h.next + 1
  bounded a ha := by
    rw [if_neg (by omega)]
    exact h.bounded a (by omega)

/-- A change of the cell at `a`. A free address stays free. -/
def modify (h : Arena α) (a : Nat) (f : α → α) : Arena α where
  cells b := if b = a then (h.cells a).map f else h.cells b
  next := h.next
  bounded b hb := by
    split
    · subst b; simp [h.bounded a hb]
    · exact h.bounded b hb

def free (h : Arena α) (a : Nat) : Arena α where
  cells b := if b = a then none else h.cells b
  next := h.next
  bounded b hb := by
    split
    · rfl
    · exact h.bounded b hb

def Live (h : Arena α) (a : Nat) : Prop := (h.cells a).isSome

instance (h : Arena α) (a : Nat) : Decidable (h.Live a) :=
  inferInstanceAs (Decidable ((h.cells a).isSome = true))

theorem live_iff {h : Arena α} {a : Nat} : h.Live a ↔ ∃ x, h.cells a = some x :=
  Option.isSome_iff_exists

theorem lt_next_of_cell {h : Arena α} {a : Nat} {x : α} (ha : h.cells a = some x) :
    a < h.next := by
  by_contra hn
  rw [h.bounded a (by omega)] at ha
  cases ha

@[simp] theorem empty_cells (a : Nat) : (empty : Arena α).cells a = none := rfl

@[simp] theorem alloc_next (h : Arena α) (x : α) : (h.alloc x).next = h.next + 1 := rfl

@[simp] theorem alloc_cells_next (h : Arena α) (x : α) :
    (h.alloc x).cells h.next = some x := by
  simp [alloc]

theorem alloc_cells_ne {h : Arena α} {x : α} {a : Nat} (ha : a ≠ h.next) :
    (h.alloc x).cells a = h.cells a := by
  simp [alloc, ha]

/-- A cell that was there before stays as it was. -/
theorem alloc_cells_of_some {h : Arena α} {x y : α} {a : Nat} (ha : h.cells a = some y) :
    (h.alloc x).cells a = some y := by
  rw [alloc_cells_ne (Nat.ne_of_lt (lt_next_of_cell ha)), ha]

@[simp] theorem modify_next (h : Arena α) (a : Nat) (f : α → α) :
    (h.modify a f).next = h.next := rfl

@[simp] theorem modify_cells_self (h : Arena α) (a : Nat) (f : α → α) :
    (h.modify a f).cells a = (h.cells a).map f := by
  simp [modify]

theorem modify_cells_ne {h : Arena α} {a b : Nat} {f : α → α} (hb : b ≠ a) :
    (h.modify a f).cells b = h.cells b := by
  simp [modify, hb]

@[simp] theorem free_next (h : Arena α) (a : Nat) : (h.free a).next = h.next := rfl

@[simp] theorem free_cells_self (h : Arena α) (a : Nat) : (h.free a).cells a = none := by
  simp [free]

theorem free_cells_ne {h : Arena α} {a b : Nat} (hb : b ≠ a) :
    (h.free a).cells b = h.cells b := by
  simp [free, hb]

/-- What a freed heap holds, it held before. -/
theorem free_cells_some {h : Arena α} {a b : Nat} {x : α} (hb : (h.free a).cells b = some x) :
    b ≠ a ∧ h.cells b = some x := by
  by_cases hba : b = a
  · subst b
    simp at hb
  · exact ⟨hba, by rwa [free_cells_ne hba] at hb⟩

end Arena

/-! ## Pools -/

/-- The lowest bound at or below `n` that has no live cell between it and `n`. -/
def top (cells : Nat → Option α) : Nat → Nat
  | 0 => 0
  | n + 1 => if (cells n).isSome then n + 1 else top cells n

theorem top_le (cells : Nat → Option α) (n : Nat) : top cells n ≤ n := by
  induction n with
  | zero => exact Nat.le_refl 0
  | succ n ih =>
    unfold top
    split <;> omega

theorem top_bounds {cells : Nat → Option α} {n a : Nat} (ha : top cells n ≤ a) (hn : a < n) :
    cells a = none := by
  induction n with
  | zero => omega
  | succ n ih =>
    unfold top at ha
    split at ha
    · omega
    · rename_i hc
      by_cases han : a = n
      · subst a
        simpa using hc
      · exact ih ha (by omega)

theorem top_of_free {cells : Nat → Option α} {m n : Nat} (hmn : m ≤ n)
    (h : ∀ a, m ≤ a → a < n → cells a = none) : top cells n = top cells m := by
  induction n with
  | zero => rw [Nat.le_zero.mp hmn]
  | succ n ih =>
    by_cases hm : m = n + 1
    · rw [hm]
    · rw [top, h n (by omega) (by omega)]
      exact ih (by omega) (fun a h1 h2 => h a h1 (by omega))

theorem top_top (cells : Nat → Option α) (n : Nat) : top cells (top cells n) = top cells n :=
  (top_of_free (top_le cells n) (fun _ h1 h2 => top_bounds h1 h2)).symm

/-- An arena whose `next` lies just above its highest live cell. -/
structure Pool (α : Type) extends Arena α where
  tight : top cells next = next

namespace Pool

def empty : Pool α := { Arena.empty with tight := rfl }

def alloc (p : Pool α) (x : α) : Pool α :=
  { p.toArena.alloc x with tight := by simp [top] }

def modify (p : Pool α) (a : Nat) (f : α → α) : Pool α where
  toArena := p.toArena.modify a f
  tight := by
    -- the change keeps which addresses are live, and `top` reads nothing else
    have hsame : ∀ b, ((p.toArena.modify a f).cells b).isSome = (p.cells b).isSome := by
      intro b
      by_cases hb : b = a
      · subst b; simp
      · rw [Arena.modify_cells_ne hb]
    have htop : ∀ n, top (p.toArena.modify a f).cells n = top p.cells n := by
      intro n
      induction n with
      | zero => rfl
      | succ n ih => simp only [top, hsame, ih]
    rw [htop]
    exact p.tight

/-- The cell is gone, and so are the free addresses above the highest live cell. -/
def free (p : Pool α) (a : Nat) : Pool α where
  cells := (p.toArena.free a).cells
  next := top (p.toArena.free a).cells p.next
  bounded b hb := by
    by_cases hbn : b < p.next
    · exact top_bounds hb hbn
    · exact (p.toArena.free a).bounded b (by simpa using hbn)
  tight := top_top _ _

@[simp] theorem alloc_toArena (p : Pool α) (x : α) : (p.alloc x).toArena = p.toArena.alloc x := rfl

@[simp] theorem modify_toArena (p : Pool α) (a : Nat) (f : α → α) :
    (p.modify a f).toArena = p.toArena.modify a f := rfl

@[simp] theorem free_cells (p : Pool α) (a : Nat) :
    (p.free a).cells = (p.toArena.free a).cells := rfl

/-- Pools with the same cells are the same pool. -/
theorem ext_cells {p q : Pool α} (h : ∀ a, p.cells a = q.cells a) : p = q := by
  have hcells : p.cells = q.cells := funext h
  have hnext : p.next = q.next := by
    rcases Nat.le_total p.next q.next with hle | hle
    · have := top_of_free hle (fun a h1 _ => p.bounded a h1)
      rw [← p.tight, ← this, hcells, q.tight]
    · have := top_of_free hle (fun a h1 _ => q.bounded a h1)
      rw [← p.tight, hcells, this, q.tight]
  obtain ⟨⟨_, _, _⟩, _⟩ := p
  obtain ⟨⟨_, _, _⟩, _⟩ := q
  simp only at hcells hnext
  subst hcells hnext
  rfl

end Pool

end heap

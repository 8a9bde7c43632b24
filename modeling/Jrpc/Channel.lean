-- A bounded channel between threads. A write to a full channel waits until there is room, or it
-- is interrupted. A channel that is full can be read, so a write that did not get through finds
-- something to be read all the same.
import Mathlib.Data.List.Basic
import Mathlib.Logic.Function.Basic

namespace channel

variable {T α : Type}

/-- What was written and not yet read, in order, and the elements of the threads that wait in a
write. There is room for one element at least. -/
structure Channel (T α : Type) where
  capacity : Nat
  items : List α
  waiting : T → Option α
  positive : 0 < capacity
  fits : items.length ≤ capacity

namespace Channel

def empty (capacity : Nat) (positive : 0 < capacity) : Channel T α :=
  ⟨capacity, [], fun _ => none, positive, Nat.zero_le _⟩

def Readable (c : Channel T α) : Prop := c.items ≠ []

instance (c : Channel T α) : Decidable c.Readable :=
  decidable_of_iff (c.items.isEmpty = false) (by simp [Readable])

def Full (c : Channel T α) : Prop := c.items.length = c.capacity

instance (c : Channel T α) : Decidable c.Full :=
  inferInstanceAs (Decidable (c.items.length = c.capacity))

theorem readable_of_full {c : Channel T α} (h : c.Full) : c.Readable := by
  intro hnil
  have hpos := c.positive
  have hlen : c.items.length = c.capacity := h
  rw [hnil, List.length_nil] at hlen
  omega

theorem room_iff {c : Channel T α} : ¬ c.Full ↔ c.items.length < c.capacity := by
  have hle := c.fits
  unfold Full
  omega

/-- A new element at the end. -/
def push (c : Channel T α) (x : α) (h : ¬ c.Full) : Channel T α where
  capacity := c.capacity
  items := c.items ++ [x]
  waiting := c.waiting
  positive := c.positive
  fits := by
    have hroom := room_iff.mp h
    rw [List.length_append, List.length_singleton]
    omega

@[simp] theorem push_items (c : Channel T α) (x : α) (h : ¬ c.Full) :
    (c.push x h).items = c.items ++ [x] := rfl

@[simp] theorem push_waiting (c : Channel T α) (x : α) (h : ¬ c.Full) :
    (c.push x h).waiting = c.waiting := rfl

theorem push_readable (c : Channel T α) (x : α) (h : ¬ c.Full) : (c.push x h).Readable := by
  intro hnil
  rw [push_items] at hnil
  simp at hnil

/-! ## Reading -/

theorem tail_fits {c : Channel T α} {x : α} {rest : List α} (h : c.items = x :: rest) :
    rest.length ≤ c.capacity := by
  have hle := c.fits
  rw [h, List.length_cons] at hle
  omega

/-- The first element is taken. With nothing to be read, a read does not return. -/
def read (c : Channel T α) : Option (α × Channel T α) :=
  match h : c.items with
  | [] => none
  | x :: rest => some (x, ⟨c.capacity, rest, c.waiting, c.positive, tail_fits h⟩)

theorem read_some {c c' : Channel T α} {x : α} (h : c.read = some (x, c')) :
    c.items = x :: c'.items ∧ c'.waiting = c.waiting ∧ c'.capacity = c.capacity := by
  unfold read at h
  split at h
  · cases h
  · rename_i y rest hitems
    cases h
    exact ⟨hitems, rfl, rfl⟩

/-- What can be read is read. -/
theorem read_of_readable {c : Channel T α} (h : c.Readable) : ∃ x c', c.read = some (x, c') := by
  unfold read
  split
  · rename_i hnil
    exact absurd hnil h
  · exact ⟨_, _, rfl⟩

/-! ## Writing -/

section Threads

variable [DecidableEq T]

def setWaiting (c : Channel T α) (t : T) (x : Option α) : Channel T α :=
  { c with waiting := Function.update c.waiting t x }

/-- A thread begins a write. It is through at once when there is room, and waits otherwise. -/
def write (c : Channel T α) (t : T) (x : α) : Channel T α :=
  if h : c.Full then c.setWaiting t (some x) else c.push x h

/-- A thread that waits gets through, now that there is room. -/
def resume (c : Channel T α) (t : T) : Option (Channel T α) :=
  if h : c.Full then none
  else (c.waiting t).map fun x => (c.push x h).setWaiting t none

/-- A thread that waits at a full channel is interrupted. Its element is lost. -/
def interrupt (c : Channel T α) (t : T) : Option (Channel T α) :=
  if c.Full ∧ (c.waiting t).isSome then some (c.setWaiting t none) else none

@[simp] theorem setWaiting_items (c : Channel T α) (t : T) (x : Option α) :
    (c.setWaiting t x).items = c.items := rfl

theorem setWaiting_waiting (c : Channel T α) (t u : T) (x : Option α) :
    (c.setWaiting t x).waiting u = if u = t then x else c.waiting u :=
  Function.update_apply c.waiting t x u

/-- A thread that no longer waits is not one more that waits. -/
theorem setWaiting_none {c : Channel T α} {t u : T}
    (h : ((c.setWaiting t none).waiting u).isSome) : (c.waiting u).isSome := by
  rw [setWaiting_waiting] at h
  split at h
  · cases h
  · exact h

theorem setWaiting_readable {c : Channel T α} {t : T} {x : Option α} :
    (c.setWaiting t x).Readable ↔ c.Readable := Iff.rfl

theorem write_full {c : Channel T α} (h : c.Full) (t : T) (x : α) :
    c.write t x = c.setWaiting t (some x) := dif_pos h

theorem write_room {c : Channel T α} (h : ¬ c.Full) (t : T) (x : α) :
    c.write t x = c.push x h := dif_neg h

theorem resume_some {c c' : Channel T α} {t : T} (h : c.resume t = some c') :
    ∃ x, ∃ hroom : ¬ c.Full, c.waiting t = some x ∧ c' = (c.push x hroom).setWaiting t none := by
  unfold resume at h
  split at h
  · cases h
  · rename_i hroom
    obtain ⟨x, hwaiting, rfl⟩ := Option.map_eq_some_iff.mp h
    exact ⟨x, hroom, hwaiting, rfl⟩

theorem interrupt_some {c c' : Channel T α} {t : T} (h : c.interrupt t = some c') :
    c.Full ∧ c' = c.setWaiting t none := by
  unfold interrupt at h
  split at h
  · rename_i hok
    cases h
    exact ⟨hok.1, rfl⟩
  · cases h

end Threads

end Channel

/-! ## The log of a channel -/

/-- What happened: an element was written, a write to the full channel failed, or an element was
read. -/
inductive Note (T : Type)
  | wrote (thread : T)
  | failed (thread : T)
  | taken

def Note.isWrote : Note T → Bool
  | .wrote _ => true
  | _ => false

def Note.isTaken : Note T → Bool
  | .taken => true
  | _ => false

/-- A write is over, one way or the other, and nothing was read since. -/
def signalled (log : List (Note T)) : Bool := log.getLast?.any fun note => !note.isTaken

theorem signalled_append (log : List (Note T)) (note : Note T) :
    signalled (log ++ [note]) = !note.isTaken := by
  unfold signalled
  rw [List.getLast?_concat, Option.any_some]

theorem signalled_of_split {before after : List (Note T)} {note : Note T}
    (h : ∀ n ∈ note :: after, n.isTaken = false) : signalled (before ++ note :: after) = true := by
  obtain ⟨last, hlast⟩ : ∃ last, (note :: after).getLast? = some last :=
    Option.isSome_iff_exists.mp (by simp)
  unfold signalled
  rw [List.getLast?_append, hlast, Option.some_or, Option.any_some,
    h last (List.mem_of_getLast? hlast)]
  rfl

/-- The channel is what the log says. -/
structure Follows (c : Channel T α) (log : List (Note T)) : Prop where
  balance : c.items.length + log.countP Note.isTaken = log.countP Note.isWrote
  signal : signalled log = true → c.Readable

theorem follows_empty (capacity : Nat) (positive : 0 < capacity) :
    Follows (Channel.empty capacity positive : Channel T α) [] :=
  ⟨rfl, fun h => by cases h⟩

namespace Follows

variable {c : Channel T α} {log : List (Note T)}

theorem push (h : Follows c log) (t : T) (x : α) (hroom : ¬ c.Full) :
    Follows (c.push x hroom) (log ++ [.wrote t]) := by
  refine ⟨?_, fun _ => c.push_readable x hroom⟩
  have hbalance := h.balance
  simp only [List.countP_append, List.countP_singleton, Channel.push_items, List.length_append,
    List.length_singleton, Note.isTaken, Note.isWrote, Bool.false_eq_true, if_false, if_true]
  omega

theorem read (h : Follows c log) {x : α} {c' : Channel T α} (hread : c.read = some (x, c')) :
    Follows c' (log ++ [.taken]) := by
  obtain ⟨hitems, _⟩ := Channel.read_some hread
  refine ⟨?_, fun hs => ?_⟩
  · have hbalance := h.balance
    rw [hitems, List.length_cons] at hbalance
    simp only [List.countP_append, List.countP_singleton, Note.isTaken, Note.isWrote,
      Bool.false_eq_true, if_false, if_true]
    omega
  · rw [signalled_append] at hs
    cases hs

variable [DecidableEq T]

theorem setWaiting (h : Follows c log) (t : T) (x : Option α) :
    Follows (c.setWaiting t x) log :=
  ⟨h.balance, fun hs => Channel.setWaiting_readable.mpr (h.signal hs)⟩

/-- A write that fails leaves the channel full, so there is something to be read. -/
theorem failed (h : Follows c log) (t : T) (hfull : c.Full) :
    Follows (c.setWaiting t none) (log ++ [.failed t]) := by
  refine ⟨?_, fun _ => Channel.readable_of_full hfull⟩
  have hbalance := h.balance
  simp only [List.countP_append, List.countP_singleton, Channel.setWaiting_items, Note.isTaken,
    Note.isWrote, Bool.false_eq_true, if_false]
  omega

end Follows

end channel

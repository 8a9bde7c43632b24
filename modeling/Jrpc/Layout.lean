-- The block of a message: the header comes first, then the room that the websocket library
-- may overwrite, then the text. The size of the block is a sum of three sizes that nothing
-- checks, so the three parts lie in the block just when the sum is a `size_t`.
import Mathlib.Algebra.Group.Nat.Defs
import Mathlib.Order.CompletePartialOrder
import Mathlib.Order.Interval.Set.Disjoint
import Jrpc.JsonStore
import Jrpc.Delivery

open heap
open jrpc.json jrpc.message

namespace jrpc.service

/-! ## The parts of a block -/

/-- All bytes of the block, by their offset. -/
def inBlock (cell : JrpcMessage) : Set Nat := Set.Ico 0 cell.block

/-- The fields `next`, `data` and `length`. -/
def headerPart (abi : Abi) : Set Nat := Set.Ico 0 abi.sizeof_message

/-- The `LWS_PRE` bytes before the text, which `lws_write` may overwrite. -/
def roomPart (abi : Abi) (cell : JrpcMessage) : Set Nat :=
  Set.Ico (cell.data - abi.lws_pre) cell.data

/-- The bytes that the second pass writes. -/
def writtenPart (cell : JrpcMessage) : Set Nat :=
  Set.Ico cell.data (cell.data + cell.payload.length)

/-- The bytes that `lws_write` reads. -/
def textPart (cell : JrpcMessage) : Set Nat := Set.Ico cell.data (cell.data + cell.length)

/-- The block has room for a text of `n` bytes, with all that comes before it. -/
structure LaidOut (abi : Abi) (n : Nat) (cell : JrpcMessage) : Prop where
  large : abi.sizeof_message + abi.lws_pre + n ≤ cell.block
  length : cell.length = n
  header_inside : headerPart abi ⊆ inBlock cell
  written_inside : writtenPart cell ⊆ inBlock cell
  text_inside : textPart cell ⊆ inBlock cell
  room : abi.lws_pre ≤ cell.data
  room_inside : roomPart abi cell ⊆ inBlock cell
  room_header : Disjoint (roomPart abi cell) (headerPart abi)
  room_text : Disjoint (roomPart abi cell) (textPart cell)

/-! ## The sum of the three sizes -/

/-- A remainder is as large as the number just when nothing was cut off. -/
theorem le_mod_iff {a m : Nat} (hm : 0 < m) : a ≤ a % m ↔ a < m := by
  constructor
  · intro h
    exact Nat.lt_of_le_of_lt h (Nat.mod_lt a hm)
  · intro h
    rw [Nat.mod_eq_of_lt h]

theorem part_inside {cell : JrpcMessage} {a b : Nat} (h : b ≤ cell.block) :
    Set.Ico a b ⊆ inBlock cell :=
  Set.Ico_subset_Ico (Nat.zero_le a) h

/-- What `jrpc_message_create` puts into the header. -/
theorem created_cell {lib : JsonLib} {abi : Abi} {fails : Bool} {s : JsonStore}
    {value : Option JsonRef} {heap heap' : MessageHeap} {message : Addr} {cell : JrpcMessage}
    (h : jrpc_message_create lib abi fails s value heap = (heap', some message))
    (hc : heap'.cells message = some cell) :
    cell.data = (abi.sizeof_message + abi.lws_pre) % 2 ^ abi.size_bits ∧
      cell.length = jrpc_message_measure lib s value ∧
      cell.block = (abi.sizeof_message + abi.lws_pre + jrpc_message_measure lib s value) %
        2 ^ abi.size_bits ∧
      cell.payload.length = jrpc_message_measure lib s value := by
  rw [create_spec] at h
  cases fails with
  | true => simp at h
  | false =>
    simp only [Bool.false_eq_true, if_false, Prod.mk.injEq, Option.some.injEq] at h
    obtain ⟨rfl, rfl⟩ := h
    rw [Arena.alloc_cells_next] at hc
    cases hc
    rw [measure_eq]
    exact ⟨rfl, rfl, rfl, rfl⟩

/-- A block of the size that was asked for has room for all of it just when the sum of the three
sizes fits into a `size_t`. -/
theorem laidOut_iff {abi : Abi} {n : Nat} {cell : JrpcMessage}
    (hdata : cell.data = (abi.sizeof_message + abi.lws_pre) % 2 ^ abi.size_bits)
    (hlength : cell.length = n)
    (hblock : cell.block = (abi.sizeof_message + abi.lws_pre + n) % 2 ^ abi.size_bits)
    (hpayload : cell.payload.length = n) :
    LaidOut abi n cell ↔ abi.sizeof_message + abi.lws_pre + n < 2 ^ abi.size_bits := by
  constructor
  · intro hl
    have hlarge := hl.large
    rw [hblock] at hlarge
    exact (le_mod_iff (Nat.two_pow_pos _)).mp hlarge
  · intro hfits
    rw [Nat.mod_eq_of_lt hfits] at hblock
    rw [Nat.mod_eq_of_lt (by omega)] at hdata
    refine ⟨by omega, hlength, ?_, ?_, ?_, by omega, ?_, ?_, ?_⟩
    · apply part_inside
      omega
    · apply part_inside
      omega
    · apply part_inside
      omega
    · apply part_inside
      omega
    · -- the room starts where the header ends
      apply Disjoint.symm
      apply Set.Ico_disjoint_Ico.mpr
      omega
    · apply Set.Ico_disjoint_Ico.mpr
      omega

/-- The link of a message does not matter. -/
theorem LaidOut.relink {abi : Abi} {n : Nat} {cell cell' : JrpcMessage} (h : LaidOut abi n cell)
    (hc : cell'.unlinked = cell.unlinked) : LaidOut abi n cell' := by
  obtain ⟨next, data, length, block, payload⟩ := cell
  obtain ⟨next', data', length', block', payload'⟩ := cell'
  cases hc
  exact ⟨h.large, h.length, h.header_inside, h.written_inside, h.text_inside, h.room,
    h.room_inside, h.room_header, h.room_text⟩

/-- A message is laid out as it should be just when the sum of the three sizes fits into a
`size_t`. -/
theorem layout_fits_iff {lib : JsonLib} {abi : Abi} {fails : Bool} {s : JsonStore}
    {value : Option JsonRef} {heap heap' : MessageHeap} {message : Addr} {cell : JrpcMessage}
    (h : jrpc_message_create lib abi fails s value heap = (heap', some message))
    (hc : heap'.cells message = some cell) :
    LaidOut abi (jrpc_message_measure lib s value) cell ↔
      abi.sizeof_message + abi.lws_pre + jrpc_message_measure lib s value <
        2 ^ abi.size_bits := by
  obtain ⟨hdata, hlength, hblock, hpayload⟩ := created_cell h hc
  exact laidOut_iff hdata hlength hblock hpayload

/-! ## A value with a long text

An array that holds another array twice has a text that is twice as long, and it takes one
node more. -/

/-- `n` arrays above the number 1. Each of them holds the value before it twice. -/
def shared : Nat → JsonStore
  | 0 => (JsonStore.empty.new (.integer 1)).1
  | n + 1 =>
    let s := shared n
    let nodes := s.nodes.modify n fun c => { c with refcount := 2 }
    ({ s with nodes }.new (.array [.node n, .node n])).1

/-- The value of the last array. -/
def sharedValue : Nat → Json
  | 0 => .integer 1
  | n + 1 => .array [sharedValue n, sharedValue n]

theorem shared_next (n : Nat) : (shared n).nodes.next = n + 1 := by
  induction n with
  | zero => rfl
  | succ n ih =>
    show (shared n).nodes.next + 1 = n + 1 + 1
    rw [ih]

theorem shared_extends (n : Nat) : Extends (shared n) (shared (n + 1)) := by
  intro a c hc
  have ha : a ≠ (shared n).nodes.next := Nat.ne_of_lt (Arena.lt_next_of_cell hc)
  have hnew : (shared (n + 1)).nodes.cells a =
      ((shared n).nodes.modify n fun c => { c with refcount := 2 }).cells a :=
    new_cells_ne ha
  rw [hnew]
  by_cases han : a = n
  · subst a
    exact ⟨2, by rw [Pool.modify_toArena, Arena.modify_cells_self, hc]; rfl⟩
  · exact ⟨c.refcount, by rw [Pool.modify_toArena, Arena.modify_cells_ne han, hc]⟩

theorem shared_reads (n : Nat) :
    (shared n).readFuel (n + 1) (.node n) = some (sharedValue n) := by
  induction n with
  | zero => rfl
  | succ n ih =>
    have hcell : (shared (n + 1)).nodes.cells (n + 1) =
        some ⟨1, .array [.node n, .node n]⟩ := by
      have hself := new_cells_self
        { shared n with nodes := (shared n).nodes.modify n fun c => { c with refcount := 2 } }
        (.array [.node n, .node n])
      rw [show ({ shared n with nodes := (shared n).nodes.modify n fun c =>
        { c with refcount := 2 } } : JsonStore).nodes.next = n + 1 from shared_next n] at hself
      exact hself
    have hmono := readFuel_mono (shared_extends n) (Nat.le_refl (n + 1)) ih
    rw [readFuel_node, hcell]
    simp [hmono, sharedValue]

/-- The text doubles from one array to the next. -/
theorem shared_text (n : Nat) :
    ∃ t, print (sharedValue n) = some t ∧ t.length + 3 = 2 ^ (n + 2) := by
  induction n with
  | zero => exact ⟨text "1", by decide, by decide⟩
  | succ n ih =>
    obtain ⟨t, ht, hlength⟩ := ih
    refine ⟨text "[" ++ (t ++ text "," ++ t) ++ text "]", ?_, ?_⟩
    · simp [sharedValue, print, printList, ht]
    · have hopen : (text "[").length = 1 := by decide
      have hcomma : (text ",").length = 1 := by decide
      have hclose : (text "]").length = 1 := by decide
      simp only [List.length_append, hopen, hcomma, hclose]
      rw [Nat.pow_succ]
      omega

theorem shared_measure (n : Nat) :
    jrpc_message_measure (sampleLib []) (shared n) (some (.node n)) = 2 ^ (n + 2) - 3 := by
  obtain ⟨t, ht, hlength⟩ := shared_text n
  have hread : (shared n).read (.node n) = some (sharedValue n) := by
    unfold JsonStore.read
    rw [shared_next]
    exact readFuel_mono (Grown.refl _).extends (Nat.le_succ _) (shared_reads n)
  have htext : textOf (sampleLib []) (shared n) (some (.node n)) = t := by
    unfold textOf JsonStore.compact
    rw [Option.bind_some, hread, Option.bind_some, show (sampleLib []).dumps = print from rfl, ht]
    rfl
  rw [measure_eq, htext]
  omega

/-- A machine with a `size_t` of 32 bits. -/
def abi32 : Abi := ⟨32, 12, 16⟩

/-- The text of one array that holds the number twice fits into its block. -/
theorem layout_fits_iff_sample :
    ∃ heap' message cell,
      jrpc_message_create (sampleLib []) abi32 false (shared 1) (some (.node 1)) .empty =
        (heap', some message) ∧
      heap'.cells message = some cell ∧ LaidOut abi32 5 cell := by
  refine ⟨_, _, _, create_spec _ _ _ _ _ _, Arena.alloc_cells_next _ _, ?_⟩
  have hcreate := create_spec (sampleLib []) abi32 false (shared 1) (some (.node 1)) .empty
  have hfits := layout_fits_iff hcreate (Arena.alloc_cells_next _ _)
  rw [shared_measure] at hfits
  exact hfits.mpr (by decide)

/-- The text of 30 arrays is so long that its block ends before the text starts. -/
theorem layout_wraps :
    ∃ heap' message cell,
      jrpc_message_create (sampleLib []) abi32 false (shared 30) (some (.node 30)) .empty =
        (heap', some message) ∧
      heap'.cells message = some cell ∧ cell.length = 4294967293 ∧ cell.data = 28 ∧
      cell.block = 25 ∧
      ¬ LaidOut abi32 (jrpc_message_measure (sampleLib []) (shared 30) (some (.node 30))) cell := by
  have hcreate := create_spec (sampleLib []) abi32 false (shared 30) (some (.node 30)) .empty
  have hcell := Arena.alloc_cells_next (Arena.empty : MessageHeap)
    { next := none
      data := (abi32.sizeof_message + abi32.lws_pre) % 2 ^ abi32.size_bits
      length := (textOf (sampleLib []) (shared 30) (some (.node 30))).length
      block := (abi32.sizeof_message + abi32.lws_pre +
        (textOf (sampleLib []) (shared 30) (some (.node 30))).length) % 2 ^ abi32.size_bits
      payload := textOf (sampleLib []) (shared 30) (some (.node 30)) }
  obtain ⟨hdata, hlength, hblock, _⟩ := created_cell hcreate hcell
  rw [shared_measure] at hlength hblock
  refine ⟨_, _, _, hcreate, hcell, hlength, hdata, hblock, ?_⟩
  intro hl
  have hlarge := hl.large
  rw [shared_measure, hblock] at hlarge
  revert hlarge
  decide

end jrpc.service

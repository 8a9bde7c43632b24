-- Outgoing messages: one block of memory for each message, with its header, some room for
-- the websocket library, and the text. A message is disposed by freeing its block, and a
-- block that is gone is never read again without a fault.
import Mathlib.Algebra.Group.Nat.Defs
import Jrpc.Json

open heap
open jrpc.json

namespace jrpc

/-- What ends a run early. `misuse` is a broken promise of the code around the server: of
libwebsockets, or of the user code. The other two are faults of the server itself. -/
inductive Fault
  | misuse
  | dangling
  | null_wsi
  deriving DecidableEq

@[simp] theorem ok_bind {α β : Type} (x : α) (f : α → Except Fault β) :
    (Except.ok x >>= f) = f x := rfl

@[simp] theorem error_bind {α β : Type} (e : Fault) (f : α → Except Fault β) :
    ((Except.error e : Except Fault α) >>= f) = .error e := rfl

/-- A chain of two calls that ends well: each of them does. -/
theorem bind_eq_ok {α β : Type} {x : Except Fault α} {f : α → Except Fault β} {r : β} :
    (x >>= f) = .ok r ↔ ∃ a, x = .ok a ∧ f a = .ok r := by
  rcases x with e | a
  · simp
  · simp

end jrpc

namespace jrpc.message

/-- A message is named by the address of its block, and no address is used twice. -/
abbrev Addr := Nat

/-- What the compiler and libwebsockets fix: the width of `size_t`, the size of a
`struct jrpc_message`, and `LWS_PRE`. -/
structure Abi where
  size_bits : Nat
  sizeof_message : Nat
  lws_pre : Nat

/-- `data` is the offset of the text in the block, `block` the size that `malloc` was asked
for, and `payload` the bytes that were put at `data`. They are kept whole here even where the
block is too small for them; whether they lie in it is said of `data` and `block`. -/
structure JrpcMessage where
  next : Option Addr
  data : Nat
  length : Nat
  block : Nat
  payload : Bytes

/-- The bytes `data[0..length)`. -/
def JrpcMessage.bytes (m : JrpcMessage) : Bytes := m.payload.take m.length

/-- A message apart from its link. -/
def JrpcMessage.unlinked (m : JrpcMessage) : JrpcMessage := { m with next := none }

abbrev MessageHeap := Arena JrpcMessage

/-! ## The functions of message.c -/

def jrpc_message_measure (lib : JsonLib) (s : JsonStore) (value : Option JsonRef) : Nat :=
  (json_dumpb lib s value 0).1

def jrpc_message_serialize (lib : JsonLib) (s : JsonStore) (message : JrpcMessage)
    (value : Option JsonRef) : JrpcMessage :=
  { message with payload := (json_dumpb lib s value message.length).2 }

/-- `fails` says that `malloc` has no memory for the block. -/
def jrpc_message_create (lib : JsonLib) (abi : Abi) (fails : Bool) (s : JsonStore)
    (value : Option JsonRef) (heap : MessageHeap) : MessageHeap × Option Addr :=
  let message_size := jrpc_message_measure lib s value
  let block := (abi.sizeof_message + abi.lws_pre + message_size) % 2 ^ abi.size_bits
  if fails then (heap, none)
  else
    let message : JrpcMessage :=
      { next := none
        data := (abi.sizeof_message + abi.lws_pre) % 2 ^ abi.size_bits
        length := message_size
        block
        payload := [] }
    (heap.alloc (jrpc_message_serialize lib s message value), some heap.next)

def jrpc_message_dispose (heap : MessageHeap) (message : Addr) : Except Fault MessageHeap :=
  if heap.Live message then .ok (heap.free message) else .error .dangling

/-! ## What they do -/

/-- The text of a message: all of the compact text, or nothing for a value that has none. -/
def textOf (lib : JsonLib) (s : JsonStore) (value : Option JsonRef) : Bytes :=
  (s.compact lib value).getD []

theorem measure_eq (lib : JsonLib) (s : JsonStore) (value : Option JsonRef) :
    jrpc_message_measure lib s value = (textOf lib s value).length := by
  unfold jrpc_message_measure json_dumpb textOf
  rcases s.compact lib value with _ | t
  · rfl
  · rfl

theorem dumpb_measured (lib : JsonLib) (s : JsonStore) (value : Option JsonRef) :
    (json_dumpb lib s value (textOf lib s value).length).2 = textOf lib s value := by
  unfold json_dumpb textOf
  rcases s.compact lib value with _ | t
  · rfl
  · simp

/-- A created message is new, is in no queue, and holds the text of its value. -/
theorem create_spec (lib : JsonLib) (abi : Abi) (fails : Bool) (s : JsonStore)
    (value : Option JsonRef) (heap : MessageHeap) :
    jrpc_message_create lib abi fails s value heap =
      if fails then (heap, none)
      else (heap.alloc
        { next := none
          data := (abi.sizeof_message + abi.lws_pre) % 2 ^ abi.size_bits
          length := (textOf lib s value).length
          block := (abi.sizeof_message + abi.lws_pre + (textOf lib s value).length) %
            2 ^ abi.size_bits
          payload := textOf lib s value }, some heap.next) := by
  unfold jrpc_message_create jrpc_message_serialize
  simp only [measure_eq, dumpb_measured]

theorem dispose_live {heap : MessageHeap} {m : Addr} (h : heap.Live m) :
    jrpc_message_dispose heap m = .ok (heap.free m) := by
  unfold jrpc_message_dispose
  rw [if_pos h]

end jrpc.message

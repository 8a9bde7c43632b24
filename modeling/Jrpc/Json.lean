-- The JSON library as the server sees it: values, the store of reference-counted nodes
-- that holds them, and the calls that the server makes. Parsing, printing and the check of
-- UTF-8 text are parameters, as only the library knows them.
import Jrpc.Heap

open heap

namespace jrpc.json

abbrev Bytes := List UInt8

/-- The bytes of a C string literal. -/
def text (s : String) : Bytes := s.toUTF8.data.toList

/-- A JSON value. A real is its 64 bits, and a string may hold bytes that are not UTF-8. -/
inductive Json
  | null
  | true
  | false
  | integer (value : Int64)
  | real (bits : UInt64)
  | string (value : Bytes)
  | array (elements : List Json)
  | object (members : List (String × Json))

/-- The member of an object, or nothing for every other value. -/
def Json.get (key : String) : Json → Option Json
  | .object members => members.lookup key
  | _ => none

/-! ## Values can be compared -/

mutual

def Json.same : Json → Json → Bool
  | .null, .null => Bool.true
  | .true, .true => Bool.true
  | .false, .false => Bool.true
  | .integer i, .integer j => i = j
  | .real a, .real b => a = b
  | .string t, .string u => t = u
  | .array vs, .array us => sameList vs us
  | .object ms, .object ns => sameMembers ms ns
  | _, _ => Bool.false

def sameList : List Json → List Json → Bool
  | [], [] => true
  | v :: vs, u :: us => v.same u && sameList vs us
  | _, _ => false

def sameMembers : List (String × Json) → List (String × Json) → Bool
  | [], [] => true
  | (k, v) :: ms, (j, u) :: ns => k = j && v.same u && sameMembers ms ns
  | _, _ => false

end

mutual

theorem Json.same_iff : ∀ (v u : Json), v.same u = true ↔ v = u
  | .null, u => by cases u <;> simp [Json.same]
  | .true, u => by cases u <;> simp [Json.same]
  | .false, u => by cases u <;> simp [Json.same]
  | .integer i, u => by cases u <;> simp [Json.same]
  | .real a, u => by cases u <;> simp [Json.same]
  | .string t, u => by cases u <;> simp [Json.same]
  | .array vs, u => by cases u <;> simp [Json.same, sameList_iff vs]
  | .object ms, u => by cases u <;> simp [Json.same, sameMembers_iff ms]

theorem sameList_iff : ∀ (vs us : List Json), sameList vs us = true ↔ vs = us
  | [], us => by cases us <;> simp [sameList]
  | v :: vs, us => by cases us <;> simp [sameList, Json.same_iff v, sameList_iff vs]

theorem sameMembers_iff : ∀ (ms ns : List (String × Json)), sameMembers ms ns = true ↔ ms = ns
  | [], ns => by cases ns <;> simp [sameMembers]
  | (k, v) :: ms, ns => by
    rcases ns with _ | ⟨⟨j, u⟩, ns⟩
    · simp [sameMembers]
    · simp [sameMembers, Json.same_iff v, sameMembers_iff ms]

end

/-! ## Nodes -/

/-- A `json_t *` that is not NULL. The three constants are shared by all their users and
are never counted. -/
inductive JsonRef
  | null
  | true
  | false
  | node (address : Nat)
  deriving DecidableEq

inductive JsonNode
  | integer (value : Int64)
  | real (bits : UInt64)
  | string (value : Bytes)
  | array (elements : List JsonRef)
  | object (members : List (String × JsonRef))

/-- The references that a node holds, in order. -/
def JsonNode.children : JsonNode → List JsonRef
  | .array elements => elements
  | .object members => members.map (·.2)
  | _ => []

structure JsonCell where
  refcount : Nat
  node : JsonNode

/-- All nodes. `underflow` says that a reference was given up that nobody held. -/
structure JsonStore where
  nodes : Pool JsonCell
  underflow : Bool

/-- What the library computes from text and to text: `loads` is `json_loadb` with no
flags, `dumps` the compact text of an array or object, and `utf8` the check of a string. -/
structure JsonLib where
  loads : Bytes → Option Json
  dumps : Json → Option Bytes
  utf8 : Bytes → Bool

/-! ## The store -/

def JsonStore.empty : JsonStore := ⟨.empty, .false⟩

/-- A new node with one reference. -/
def JsonStore.new (s : JsonStore) (node : JsonNode) : JsonStore × JsonRef :=
  ({ s with nodes := s.nodes.alloc ⟨1, node⟩ }, .node s.nodes.next)

def JsonStore.node? (s : JsonStore) : JsonRef → Option JsonNode
  | .node a => (s.nodes.cells a).map (·.node)
  | _ => none

def JsonStore.Live (s : JsonStore) : JsonRef → Prop
  | .node a => s.nodes.Live a
  | _ => True

instance (s : JsonStore) (r : JsonRef) : Decidable (s.Live r) := by
  cases r <;> unfold JsonStore.Live <;> infer_instance

/-- The references that the node at an address holds. -/
def JsonStore.childrenAt (s : JsonStore) (a : Nat) : List JsonRef :=
  match s.nodes.cells a with
  | some c => c.node.children
  | none => []

/-- No node refers to a node that is gone. -/
def JsonStore.Closed (s : JsonStore) : Prop :=
  ∀ a < s.nodes.next, ∀ r ∈ s.childrenAt a, s.Live r

instance (s : JsonStore) : Decidable s.Closed :=
  inferInstanceAs (Decidable (∀ a < s.nodes.next, ∀ r ∈ s.childrenAt a, s.Live r))

/-! ## Reading a value

A value that contains itself has no finite reading, so the reading follows at most one
reference more than there are addresses. -/

def JsonStore.readFuel (s : JsonStore) : Nat → JsonRef → Option Json
  | _, .null => some .null
  | _, .true => some .true
  | _, .false => some .false
  | 0, .node _ => none
  | fuel + 1, .node a =>
    match s.nodes.cells a with
    | none => none
    | some c =>
      match c.node with
      | .integer i => some (.integer i)
      | .real b => some (.real b)
      | .string t => some (.string t)
      | .array rs => (rs.mapM (s.readFuel fuel)).map .array
      | .object ms =>
        (ms.mapM fun m => (s.readFuel fuel m.2).map fun v => (m.1, v)).map .object

/-- The value of a reference, when it has one. -/
def JsonStore.read (s : JsonStore) (r : JsonRef) : Option Json :=
  s.readFuel (s.nodes.next + 1) r

/-! ## References -/

/-- The references held by all nodes below an address. -/
def linksBelow (s : JsonStore) : Nat → Nat
  | 0 => 0
  | n + 1 => linksBelow s n + (s.childrenAt n).length

/-- Gives up one reference to each node of the list. A node with no reference left is gone,
and gives up the references that it held. -/
def decrefFuel : Nat → List JsonRef → JsonStore → JsonStore
  | 0, _, s => s
  | _ + 1, [], s => s
  | fuel + 1, .node a :: rest, s =>
    match s.nodes.cells a with
    | none => decrefFuel fuel rest { s with underflow := .true }
    | some c =>
      if c.refcount ≤ 1 then
        decrefFuel fuel (c.node.children ++ rest) { s with nodes := s.nodes.free a }
      else
        decrefFuel fuel rest
          { s with nodes := s.nodes.modify a fun c => { c with refcount := c.refcount - 1 } }
  | fuel + 1, _ :: rest, s => decrefFuel fuel rest s

/-- `json_decref`. Each turn gives up a reference, and no reference is given up twice, so
there are at most one turn more than there are references in the store. -/
def json_decref (value : Option JsonRef) (s : JsonStore) : JsonStore :=
  match value with
  | none => s
  | some r => decrefFuel (linksBelow s s.nodes.next + 1) [r] s

/-! ## New values

`fails` says that the library has no memory for the call. -/

def json_object (fails : Bool) (s : JsonStore) : JsonStore × Option JsonRef :=
  if fails then (s, none)
  else ((s.new (.object [])).1, some (s.new (.object [])).2)

def json_integer (fails : Bool) (value : Int64) (s : JsonStore) : JsonStore × Option JsonRef :=
  if fails then (s, none)
  else ((s.new (.integer value)).1, some (s.new (.integer value)).2)

/-- No string is made of text that is not UTF-8. -/
def json_string (lib : JsonLib) (fails : Bool) (value : Bytes) (s : JsonStore) :
    JsonStore × Option JsonRef :=
  if fails || !lib.utf8 value then (s, none)
  else ((s.new (.string value)).1, some (s.new (.string value)).2)

/-- The members with a new value for a key: in the place of the old value, or at the end. -/
def setMember (members : List (String × JsonRef)) (key : String) (value : JsonRef) :
    List (String × JsonRef) :=
  if (members.lookup key).isSome then
    members.map fun m => if m.1 = key then (key, value) else m
  else members ++ [(key, value)]

/-- `json_object_set_new` takes over one reference to the value. It gives this reference up
when it fails: with no object, with the object itself as the value, or with no memory. -/
def json_object_set_new (fails : Bool) (object : Option JsonRef) (key : String)
    (value : Option JsonRef) (s : JsonStore) : JsonStore :=
  match value, object with
  | none, _ => s
  | some v, some (.node a) =>
    match s.nodes.cells a with
    | some ⟨_, .object members⟩ =>
      if fails ∨ v = .node a then json_decref (some v) s
      else
        let nodes := s.nodes.modify a fun c =>
          { c with node := .object (setMember members key v) }
        json_decref (members.lookup key) { s with nodes }
    | _ => json_decref (some v) s
  | some v, _ => json_decref (some v) s

def json_array (fails : Bool) (s : JsonStore) : JsonStore × Option JsonRef :=
  if fails then (s, none)
  else ((s.new (.array [])).1, some (s.new (.array [])).2)

/-- `json_array_append_new` takes over one reference to the value. It gives this reference up
when it fails: with no array, with the array itself as the value, or with no memory. -/
def json_array_append_new (fails : Bool) (array value : Option JsonRef) (s : JsonStore) :
    JsonStore :=
  match value, array with
  | none, _ => s
  | some v, some (.node a) =>
    match s.nodes.cells a with
    | some ⟨_, .array elements⟩ =>
      if fails ∨ v = .node a then json_decref (some v) s
      else
        { s with
          nodes := s.nodes.modify a fun c => { c with node := .array (elements ++ [v]) } }
    | _ => json_decref (some v) s
  | some v, _ => json_decref (some v) s

/-! ## Loading a value into the store -/

mutual

/-- Puts a value into the store, with one reference to each of its nodes. -/
def load : Json → JsonStore → JsonStore × JsonRef
  | .null, s => (s, .null)
  | .true, s => (s, .true)
  | .false, s => (s, .false)
  | .integer i, s => s.new (.integer i)
  | .real b, s => s.new (.real b)
  | .string t, s => s.new (.string t)
  | .array vs, s => (loadList vs s).1.new (.array (loadList vs s).2)
  | .object ms, s => (loadMembers ms s).1.new (.object (loadMembers ms s).2)

def loadList : List Json → JsonStore → JsonStore × List JsonRef
  | [], s => (s, [])
  | v :: vs, s => ((loadList vs (load v s).1).1, (load v s).2 :: (loadList vs (load v s).1).2)

def loadMembers : List (String × Json) → JsonStore → JsonStore × List (String × JsonRef)
  | [], s => (s, [])
  | (k, v) :: ms, s =>
    ((loadMembers ms (load v s).1).1, (k, (load v s).2) :: (loadMembers ms (load v s).1).2)

end

/-- `json_loadb(buffer, length, 0, NULL)`. -/
def json_loadb (lib : JsonLib) (buffer : Bytes) (s : JsonStore) : JsonStore × Option JsonRef :=
  match lib.loads buffer with
  | none => (s, none)
  | some v => ((load v s).1, some (load v s).2)

/-! ## Looking at a value -/

def json_object_get (s : JsonStore) (object : JsonRef) (key : String) : Option JsonRef :=
  match s.node? object with
  | some (.object members) => members.lookup key
  | _ => none

def json_array_get (s : JsonStore) (array : JsonRef) (index : Nat) : Option JsonRef :=
  match s.node? array with
  | some (.array elements) => elements[index]?
  | _ => none

def json_is_string (s : JsonStore) (r : JsonRef) : Bool :=
  match s.node? r with
  | some (.string _) => .true
  | _ => .false

def json_is_integer (s : JsonStore) (r : JsonRef) : Bool :=
  match s.node? r with
  | some (.integer _) => .true
  | _ => .false

def json_is_array (s : JsonStore) (r : JsonRef) : Bool :=
  match s.node? r with
  | some (.array _) => .true
  | _ => .false

def json_is_object (s : JsonStore) (r : JsonRef) : Bool :=
  match s.node? r with
  | some (.object _) => .true
  | _ => .false

/-- The text of a string, and no text for every other value. -/
def json_string_value (s : JsonStore) (r : JsonRef) : Bytes :=
  match s.node? r with
  | some (.string t) => t
  | _ => []

/-- The value of an integer, and 0 for every other value. -/
def json_integer_value (s : JsonStore) (r : JsonRef) : Int64 :=
  match s.node? r with
  | some (.integer i) => i
  | _ => 0

/-! ## Printing a value -/

/-- The compact text of a value in the store, as the library prints it. -/
def JsonStore.compact (lib : JsonLib) (s : JsonStore) (value : Option JsonRef) : Option Bytes :=
  (value.bind s.read).bind lib.dumps

/-- `json_dumpb(value, buffer, size, JSON_COMPACT)`: the length of the text, 0 when there is
none, and the bytes that it put into the buffer. -/
def json_dumpb (lib : JsonLib) (s : JsonStore) (value : Option JsonRef) (size : Nat) :
    Nat × Bytes :=
  match s.compact lib value with
  | none => (0, [])
  | some t => (t.length, t.take size)

end jrpc.json

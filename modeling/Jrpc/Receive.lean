-- What a received frame does. The server reads three members of the frame and calls one
-- handler, or none, and which one depends on the frame alone. A frame that is no call
-- leaves nothing behind.
import Jrpc.JsonStore
import Jrpc.Protocol

open heap runs
open jrpc.json jrpc.message jrpc.queue jrpc.connection

namespace jrpc.protocol

variable {H : Type}

/-! ## Calls -/

/-- What a frame asks for: a method with its parameters, and an integer `id` if it has one. -/
structure Call where
  method_name : Bytes
  params : Json
  id : Option Int64

def stringOf : Json → Option Bytes
  | .string t => some t
  | _ => none

def integerOf : Json → Option Int64
  | .integer i => some i
  | _ => none

def isContainer : Json → Bool
  | .array _ => true
  | .object _ => true
  | _ => false

/-- The call that a frame is: its `method` is a string, and its `params` an array or an
object. -/
def callOf (frame : Json) : Option Call := do
  let method_name ← (frame.get "method").bind stringOf
  let params ← (frame.get "params").filter isContainer
  some { method_name, params, id := (frame.get "id").bind integerOf }

/-- The call that a buffer is. -/
def callIn (lib : JsonLib) (buffer : Bytes) : Option Call := (lib.loads buffer).bind callOf

/-- What can be seen of a call: a handler, and what it is given. -/
def Call.event (c : Conn) (call : Call) : Event :=
  match call.id with
  | some i => .onmethod c call.method_name (some call.params) i.toInt32
  | none => .onnotify c call.method_name (some call.params)

/-- The handler that runs for a call, with the parameters that it is given. -/
def Call.handler (protocol : JrpcProtocol H) (c : Conn) (call : Call) (params : JsonRef) :
    UserProg H :=
  match call.id with
  | some i => protocol.onmethod c call.method_name (some params) i.toInt32
  | none => protocol.onnotify c call.method_name (some params)

/-! ## Reading the members of a loaded frame -/

/-- A reference that reads as a value is what the value is. -/
theorem node_of_reads {s : JsonStore} {n : Nat} {r : JsonRef} {v : Json}
    (h : s.readFuel n r = some v) :
    json_is_string s r = (stringOf v).isSome ∧
      json_string_value s r = (stringOf v).getD [] ∧
      json_is_integer s r = (integerOf v).isSome ∧
      json_integer_value s r = (integerOf v).getD 0 ∧
      (json_is_array s r || json_is_object s r) = isContainer v := by
  cases r with
  | node a =>
    cases n with
    | zero => simp [JsonStore.readFuel] at h
    | succ n =>
      rw [readFuel_node] at h
      rcases hc : s.nodes.cells a with _ | ⟨k, node⟩
      · simp [hc] at h
      · simp only [hc] at h
        have hnode := node?_of_cell hc
        unfold json_is_string json_string_value json_is_integer json_integer_value json_is_array
          json_is_object
        rw [hnode]
        cases node with
        | array rs =>
          obtain ⟨vs, _, rfl⟩ := Option.map_eq_some_iff.mp h
          simp [stringOf, integerOf, isContainer]
        | object ms =>
          obtain ⟨vs, _, rfl⟩ := Option.map_eq_some_iff.mp h
          simp [stringOf, integerOf, isContainer]
        | _ =>
          cases h
          simp [stringOf, integerOf, isContainer]
  | _ =>
    simp at h
    subst h
    simp [json_is_string, json_string_value, json_is_integer, json_integer_value, json_is_array,
      json_is_object, JsonStore.node?, stringOf, integerOf, isContainer]

/-- A member and its value: both are there, or both are missing. -/
def Member (s : JsonStore) (n : Nat) (r : Option JsonRef) (v : Option Json) : Prop :=
  (r = none ∧ v = none) ∨ ∃ r' v', r = some r' ∧ v = some v' ∧ s.readFuel n r' = some v'

/-- The members of an object are read one by one. -/
theorem lookup_member {s : JsonStore} {n : Nat} {ms : List (String × JsonRef)}
    {vs : List (String × Json)} (key : String)
    (h : List.Forall₂ (fun m p => p.1 = m.1 ∧ s.readFuel n m.2 = some p.2) ms vs) :
    Member s n (ms.lookup key) (vs.lookup key) := by
  induction h with
  | nil => exact .inl ⟨rfl, rfl⟩
  | @cons m p ms vs hmp _ ih =>
    obtain ⟨hkey, hread⟩ := hmp
    rw [List.lookup_cons, List.lookup_cons, hkey]
    rcases key == m.1 with _ | _
    · exact ih
    · exact .inr ⟨m.2, p.2, rfl, rfl, hread⟩

/-- What `json_object_get` finds is the member of the value. -/
theorem object_get_member {s : JsonStore} {n : Nat} {r : JsonRef} {v : Json}
    (h : s.readFuel (n + 1) r = some v) (key : String) :
    Member s n (json_object_get s r key) (v.get key) := by
  cases r with
  | node a =>
    rcases hc : s.nodes.cells a with _ | ⟨k, node⟩
    · rw [readFuel_node, hc] at h
      cases h
    · unfold json_object_get
      rw [node?_of_cell hc]
      cases node with
      | object ms =>
        obtain ⟨vs, rfl, hvs⟩ := readFuel_object hc h
        exact lookup_member key hvs
      | array rs =>
        rw [readFuel_node, hc] at h
        obtain ⟨vs, _, rfl⟩ := Option.map_eq_some_iff.mp h
        exact .inl ⟨rfl, rfl⟩
      | _ =>
        rw [readFuel_node, hc] at h
        cases h
        exact .inl ⟨rfl, rfl⟩
  | _ =>
    simp at h
    subst h
    exact .inl ⟨rfl, rfl⟩

/-! ## One frame -/

/-- The name of the method, when there is one. -/
theorem name_member {s : JsonStore} {n : Nat} {r : Option JsonRef} {v : Option Json}
    (h : Member s n r v) :
    r.any (json_is_string s) = (v.bind stringOf).isSome ∧
      (r.map (json_string_value s)).getD [] = (v.bind stringOf).getD [] := by
  obtain ⟨rfl, rfl⟩ | ⟨r', v', rfl, rfl, hread⟩ := h
  · exact ⟨rfl, rfl⟩
  · obtain ⟨hstring, hvalue, _⟩ := node_of_reads hread
    exact ⟨hstring, hvalue⟩

/-- The id, when it is an integer. -/
theorem id_member {s : JsonStore} {n : Nat} {r : Option JsonRef} {v : Option Json}
    (h : Member s n r v) :
    r.any (json_is_integer s) = (v.bind integerOf).isSome ∧
      (r.map (json_integer_value s)).getD 0 = (v.bind integerOf).getD 0 := by
  obtain ⟨rfl, rfl⟩ | ⟨r', v', rfl, rfl, hread⟩ := h
  · exact ⟨rfl, rfl⟩
  · obtain ⟨_, _, hinteger, hvalue, _⟩ := node_of_reads hread
    exact ⟨hinteger, hvalue⟩

/-- The parameters, when they are an array or an object. -/
theorem params_member {s : JsonStore} {n : Nat} {r : Option JsonRef} {v : Option Json}
    (h : Member s n r v) :
    r.any (fun r => json_is_array s r || json_is_object s r) = (v.filter isContainer).isSome := by
  obtain ⟨rfl, rfl⟩ | ⟨r', v', rfl, rfl, hread⟩ := h
  · rfl
  · obtain ⟨_, _, _, _, hcontainer⟩ := node_of_reads hread
    rw [Option.any_some, hcontainer]
    rcases hv : isContainer v' with _ | _ <;> simp [Option.filter, hv]

/-- A frame that is a call runs its handler, and every other frame runs none. -/
theorem dispatch_eq (p : Platform) (protocol : JrpcProtocol H) (c : Conn) {request : JsonRef}
    {w : World H} {v : Json} (hv : w.mach.json.read request = some v) :
    (callOf v = none → dispatch p protocol c request w = .ok (w, [])) ∧
      ∀ call, callOf v = some call → ∃ params, w.mach.json.read params = some call.params ∧
        dispatch p protocol c request w =
          callHandler p (call.event c) (call.handler protocol c params) w := by
  have hname := name_member (object_get_member hv "method")
  have hid := id_member (object_get_member hv "id")
  have hparams := params_member (object_get_member hv "params")
  have hmember := object_get_member hv "params"
  unfold dispatch
  dsimp only
  rw [hname.1, hname.2, hparams, hid.1, hid.2]
  unfold callOf
  rcases hm : (v.get "method").bind stringOf with _ | method_name
  · exact ⟨fun _ => rfl, fun call hcall => by cases hcall⟩
  · rcases hp : (v.get "params").filter isContainer with _ | params
    · exact ⟨fun _ => rfl, fun call hcall => by cases hcall⟩
    · refine ⟨fun hcall => (by cases hcall), fun call hcall => ?_⟩
      cases hcall
      obtain ⟨hr, hv'⟩ | ⟨r, v', hr, hv', hread⟩ := hmember
      · rw [hv'] at hp
        cases hp
      · rw [hv', Option.filter_eq_some_iff] at hp
        obtain ⟨hp, _⟩ := hp
        cases hp
        have hread' : w.mach.json.read r = some params :=
          readFuel_mono (Grown.refl _).extends (Nat.le_succ _) hread
        refine ⟨r, hread', ?_⟩
        rw [hr]
        simp only [Option.isSome_some, Bool.and_self, if_true, Option.bind_some, hread']
        rcases hi : (v.get "id").bind integerOf with _ | i
        · rfl
        · rfl

/-- A buffer that is no call leaves nothing behind. -/
theorem process_no_call {p : Platform} (protocol : JrpcProtocol H) (c : Conn) {buffer : Bytes}
    (h : callIn p.lib buffer = none) (w : World H) :
    jrpc_protocol_process p protocol c buffer w = .ok (w, []) := by
  unfold jrpc_protocol_process json_loadb
  unfold callIn at h
  rcases hload : p.lib.loads buffer with _ | v
  · rfl
  · rw [hload, Option.bind_some] at h
    have hread : (w.setJson (load v w.mach.json).1).mach.json.read (load v w.mach.json).2 =
        some v := read_load v w.mach.json
    dsimp only
    rw [(dispatch_eq p protocol c hread).1 h, ok_bind]
    have hrestore := json_decref_load v w.mach.json
    simp only [World.setJson, hrestore]

/-- The value of a buffer that is a call is loaded, its handler runs once, and then the value is
given up. -/
theorem process_loaded {p : Platform} (protocol : JrpcProtocol H) (c : Conn) {buffer : Bytes}
    {v : Json} {call : Call} (hload : p.lib.loads buffer = some v) (hcall : callOf v = some call)
    (w : World H) :
    ∃ params, (load v w.mach.json).1.read params = some call.params ∧
      jrpc_protocol_process p protocol c buffer w = (do
        let (w', out) ← callHandler p (call.event c) (call.handler protocol c params)
          (w.setJson (load v w.mach.json).1)
        .ok (w'.setJson (json_decref (some (load v w.mach.json).2) w'.mach.json), out)) := by
  have hread : (w.setJson (load v w.mach.json).1).mach.json.read (load v w.mach.json).2 =
      some v := read_load v w.mach.json
  obtain ⟨params, hparams, hdispatch⟩ := (dispatch_eq p protocol c hread).2 call hcall
  refine ⟨params, hparams, ?_⟩
  unfold jrpc_protocol_process json_loadb
  rw [hload]
  dsimp only
  rw [hdispatch]

/-- A buffer that is a call runs its handler once, with the parameters of the frame. -/
theorem process_call {p : Platform} (protocol : JrpcProtocol H) (c : Conn) {buffer : Bytes}
    {call : Call} (h : callIn p.lib buffer = some call) (w : World H) :
    ∃ json request params, json.read params = some call.params ∧
      jrpc_protocol_process p protocol c buffer w = (do
        let (w, out) ← callHandler p (call.event c) (call.handler protocol c params)
          (w.setJson json)
        .ok (w.setJson (json_decref (some request) w.mach.json), out)) := by
  obtain ⟨v, hload, hcall⟩ := Option.bind_eq_some_iff.mp h
  obtain ⟨params, hparams, hprocess⟩ := process_loaded protocol c hload hcall w
  exact ⟨_, _, params, hparams, hprocess⟩

end jrpc.protocol

-- Connections: what the server keeps for each of them, and the functions that send a
-- message to one. A message is built as a JSON object, printed into a message block, and
-- put into the queue of the connection.
import Mathlib.Logic.Function.Basic
import Jrpc.Queue

open heap
open jrpc.json jrpc.message jrpc.queue

namespace jrpc.connection

/-- A connection is named by the address of its session storage, which libwebsockets hands
to each callback of the session. -/
abbrev Conn := Nat

/-- A `struct lws *`. -/
abbrev Wsi := Nat

structure JrpcConnection where
  server : Option Nat
  wsi : Option Wsi
  messages : JrpcQueue
  user_data : Option Nat

/-- Session storage before the first callback of the session. -/
def JrpcConnection.zero : JrpcConnection := ⟨none, none, ⟨none, none⟩, none⟩

/-- The libraries and the compiler under the server. -/
structure Platform where
  lib : JsonLib
  abi : Abi

/-- What can be seen from outside. `send` is a call of `jrpc_connection_send`, with the
value of the object at that time, and the message that it created with its bytes. -/
inductive Event
  | onconnected (connection : Conn)
  | ondisconnected (connection : Conn)
  | onmethod (connection : Conn) (method_name : Bytes) (params : Option Json) (id : Int32)
  | onnotify (connection : Conn) (method_name : Bytes) (params : Option Json)
  | send (connection : Conn) (object : Option Json) (message : Option (Addr × Bytes))
  | on_writable (wsi : Wsi)
  | write (wsi : Wsi) (message : Addr) (data : Bytes) (result : Int32)
  | dispose (message : Addr)
  | adopt (fd : Int32)
  | read (fd : Int32)
  | returned (code : Int32)

/-- All memory, and the requests for a writable callback that libwebsockets keeps. `oom n`
says that the allocation after the next `n` ones fails. -/
structure Machine where
  json : JsonStore
  oom : Nat → Bool
  heap : MessageHeap
  conns : Conn → JrpcConnection
  pending : Wsi → Bool

/-- The failures that are left after `n` allocations. -/
def later (n : Nat) (oom : Nat → Bool) : Nat → Bool := fun i => oom (i + n)

def Machine.setQueue (m : Machine) (c : Conn) (heap : MessageHeap) (messages : JrpcQueue) :
    Machine :=
  { m with heap, conns := Function.update m.conns c { m.conns c with messages } }

/-- `lws_callback_on_writable` sets a flag that is cleared by the next writable callback. -/
def lws_callback_on_writable (wsi : Option Wsi) (m : Machine) :
    Except Fault (Machine × List Event) :=
  match wsi with
  | none => .error .null_wsi
  | some wsi => .ok ({ m with pending := Function.update m.pending wsi true }, [.on_writable wsi])

/-! ## The functions of connection.c -/

def jrpc_connection_send (p : Platform) (connection : Conn) (message_data : Option JsonRef)
    (m : Machine) : Except Fault (Machine × List Event) := do
  let object := message_data.bind m.json.read
  let (heap, message) :=
    jrpc_message_create p.lib p.abi (m.oom 0) m.json message_data m.heap
  let m := { m with oom := later 1 m.oom }
  match message with
  | some message => do
    let bytes := ((heap.cells message).map (·.bytes)).getD []
    let (heap, messages) ← jrpc_queue_append heap (m.conns connection).messages message
    let m := m.setQueue connection heap messages
    let (m, out) ← lws_callback_on_writable (m.conns connection).wsi m
    .ok ({ m with json := json_decref message_data m.json },
      .send connection object (some (message, bytes)) :: out)
  | none =>
    .ok ({ m with json := json_decref message_data m.json }, [.send connection object none])

def jrpc_connection_init (connection : Conn) (server : Nat) (wsi : Wsi) (m : Machine) :
    Machine :=
  { m with
    conns := Function.update m.conns connection
      { server := some server, wsi := some wsi, messages := jrpc_queue_init, user_data := none } }

def jrpc_connection_cleanup (connection : Conn) (m : Machine) :
    Except Fault (Machine × List Event) := do
  let (heap, messages, disposed) ← jrpc_queue_cleanup m.heap (m.conns connection).messages
  .ok (m.setQueue connection heap messages, disposed.map .dispose)

/-- The object that `jrpc_respond` builds. The calls of the JSON library may fail one by one,
and their results are dropped. -/
def responseObject (oom : Nat → Bool) (result : Option JsonRef) (id : Int32) (s : JsonStore) :
    JsonStore × Option JsonRef :=
  let (s, response) := json_object (oom 0) s
  let s := json_object_set_new (oom 1) response "result" result s
  let (s, id_holder) := json_integer (oom 2) id.toInt64 s
  let s := json_object_set_new (oom 3) response "id" id_holder s
  (s, response)

def jrpc_respond (p : Platform) (connection : Conn) (result : Option JsonRef) (id : Int32)
    (m : Machine) : Except Fault (Machine × List Event) :=
  let (json, response) := responseObject m.oom result id m.json
  jrpc_connection_send p connection response { m with json, oom := later 4 m.oom }

/-- The object that `jrpc_respond_error` builds. -/
def errorObject (lib : JsonLib) (oom : Nat → Bool) (error_code : Int32) (error_message : Bytes)
    (id : Int32) (s : JsonStore) : JsonStore × Option JsonRef :=
  let (s, error_holder) := json_object (oom 0) s
  let (s, code) := json_integer (oom 1) error_code.toInt64 s
  let s := json_object_set_new (oom 2) error_holder "code" code s
  let (s, message) := json_string lib (oom 3) error_message s
  let s := json_object_set_new (oom 4) error_holder "message" message s
  let (s, response) := json_object (oom 5) s
  let s := json_object_set_new (oom 6) response "error" error_holder s
  let (s, id_holder) := json_integer (oom 7) id.toInt64 s
  let s := json_object_set_new (oom 8) response "id" id_holder s
  (s, response)

def jrpc_respond_error (p : Platform) (connection : Conn) (error_code : Int32)
    (error_message : Bytes) (id : Int32) (m : Machine) : Except Fault (Machine × List Event) :=
  let (json, response) := errorObject p.lib m.oom error_code error_message id m.json
  jrpc_connection_send p connection response { m with json, oom := later 9 m.oom }

/-- The object that `jrpc_notify` builds. -/
def notificationObject (lib : JsonLib) (oom : Nat → Bool) (method : Bytes)
    (params : Option JsonRef) (s : JsonStore) : JsonStore × Option JsonRef :=
  let (s, notification) := json_object (oom 0) s
  let (s, name) := json_string lib (oom 1) method s
  let s := json_object_set_new (oom 2) notification "method" name s
  let s := json_object_set_new (oom 3) notification "params" params s
  (s, notification)

def jrpc_notify (p : Platform) (connection : Conn) (method : Bytes) (params : Option JsonRef)
    (m : Machine) : Except Fault (Machine × List Event) :=
  let (json, notification) := notificationObject p.lib m.oom method params m.json
  jrpc_connection_send p connection notification { m with json, oom := later 4 m.oom }

def jrpc_connection_get_server (connection : Conn) (m : Machine) : Option Nat :=
  (m.conns connection).server

def jrpc_connection_set_userdata (connection : Conn) (user_data : Option Nat) (m : Machine) :
    Machine :=
  { m with conns := Function.update m.conns connection { m.conns connection with user_data } }

def jrpc_connection_get_userdata (connection : Conn) (m : Machine) : Option Nat :=
  (m.conns connection).user_data

/-- One call of the three functions that user code sends with. -/
inductive Send
  | respond (result : Option JsonRef) (id : Int32)
  | respond_error (error_code : Int32) (error_message : Bytes) (id : Int32)
  | notify (method : Bytes) (params : Option JsonRef)

def Send.run (p : Platform) (connection : Conn) :
    Send → Machine → Except Fault (Machine × List Event)
  | .respond result id => jrpc_respond p connection result id
  | .respond_error code message id => jrpc_respond_error p connection code message id
  | .notify method params => jrpc_notify p connection method params

end jrpc.connection

-- The websocket protocol of the server: what user code may do, how a received frame is
-- dispatched to the handlers, and the callback that libwebsockets calls for everything
-- that happens.
import Jrpc.Connection
import Jrpc.Outbox

open heap
open outbox (Phase)
open jrpc.json jrpc.message jrpc.queue jrpc.connection

namespace jrpc.protocol

/-! ## User code -/

/-- User code that runs on the thread of the server: a handler, or code between two
callbacks. `H` is all that it remembers. It may change JSON values at any time, and it sees
nothing of the server but what the calls give back. -/
inductive UserProg (H : Type)
  | ret
  | compute (f : H → JsonStore → H × JsonStore) (k : H → JsonStore → UserProg H)
  | send (connection : Conn) (call : Send) (k : UserProg H)
  | set_userdata (connection : Conn) (user_data : Option Nat) (k : UserProg H)
  | get_userdata (connection : Conn) (k : Option Nat → UserProg H)

/-- All memory, the phase of each session, and what user code remembers. -/
structure World (H : Type) where
  mach : Machine
  phase : Conn → Phase
  user : H

def World.setJson {H : Type} (w : World H) (json : JsonStore) : World H :=
  { w with mach := { w.mach with json } }

def LiveArg (s : JsonStore) : Option JsonRef → Prop
  | none => True
  | some r => s.Live r

instance (s : JsonStore) (r : Option JsonRef) : Decidable (LiveArg s r) := by
  cases r <;> unfold LiveArg <;> infer_instance

/-- What the JSON library asks of its users: a value that is passed is not gone, and no
value that is left refers to one that is. -/
def Send.ValidIn (s : JsonStore) : Send → Prop
  | .respond result _ => s.Closed ∧ LiveArg s result
  | .respond_error _ _ _ => s.Closed
  | .notify _ params => s.Closed ∧ LiveArg s params

instance (s : JsonStore) (call : Send) : Decidable (Send.ValidIn s call) := by
  cases call <;> unfold Send.ValidIn <;> infer_instance

/-- User code may send to a connection from its connected handler on, until its disconnected
handler has returned. -/
def exec {H : Type} (p : Platform) : UserProg H → World H → Except Fault (World H × List Event)
  | .ret, w => .ok (w, [])
  | .compute f k, w =>
    let (user, json) := f w.user w.mach.json
    exec p (k user json) { w.setJson json with user }
  | .send c call k, w =>
    if w.phase c = .established ∧ Send.ValidIn w.mach.json call then do
      let (mach, out) ← call.run p c w.mach
      let (w, out') ← exec p k { w with mach }
      .ok (w, out ++ out')
    else .error .misuse
  | .set_userdata c user_data k, w =>
    if w.phase c = .established then
      exec p k { w with mach := jrpc_connection_set_userdata c user_data w.mach }
    else .error .misuse
  | .get_userdata c k, w =>
    if w.phase c = .established then
      exec p (k (jrpc_connection_get_userdata c w.mach)) w
    else .error .misuse

/-! ## The functions of protocol.c -/

structure JrpcProtocol (H : Type) where
  server : Nat
  onmethod : Conn → Bytes → Option JsonRef → Int32 → UserProg H
  onnotify : Conn → Bytes → Option JsonRef → UserProg H
  onconnected : Conn → UserProg H
  ondisconnected : Conn → UserProg H
  fd : Int32 × Int32

variable {H : Type}

def jrpc_default_onmethod (connection : Conn) (_method_name : Bytes)
    (_params : Option JsonRef) (id : Int32) : UserProg H :=
  .send connection (.respond_error (-1) (text "not implemented") id) .ret

def jrpc_default_onnotify (_connection : Conn) (_method_name : Bytes)
    (_content : Option JsonRef) : UserProg H := .ret

def jrpc_default_onconnected (_connection : Conn) : UserProg H := .ret

def jrpc_default_ondisconnected (_connection : Conn) : UserProg H := .ret

/-- `fd` is the pair that `socketpair` gives. -/
def jrpc_server_protocol_init (server : Nat) (fd : Int32 × Int32) : JrpcProtocol H where
  server
  onmethod := jrpc_default_onmethod
  onnotify := jrpc_default_onnotify
  onconnected := jrpc_default_onconnected
  ondisconnected := jrpc_default_ondisconnected
  fd

/-- The call of a handler: the call can be seen, and then all that the handler does. -/
def callHandler (p : Platform) (call : Event) (handler : UserProg H) (w : World H) :
    Except Fault (World H × List Event) := do
  let (w, out) ← exec p handler w
  .ok (w, call :: out)

/-- The frame is read by the members `method`, `params` and `id` only. An `id` that is no
integer counts as none, and an integer one is cut down to a C `int`. -/
def dispatch (p : Platform) (protocol : JrpcProtocol H) (connection : Conn) (request : JsonRef)
    (w : World H) : Except Fault (World H × List Event) :=
  let s := w.mach.json
  let name_holder := json_object_get s request "method"
  let params := json_object_get s request "params"
  let id_holder := json_object_get s request "id"
  if name_holder.any (json_is_string s) &&
      params.any (fun r => json_is_array s r || json_is_object s r) then
    let method_name := (name_holder.map (json_string_value s)).getD []
    if id_holder.any (json_is_integer s) then
      let id := ((id_holder.map (json_integer_value s)).getD 0).toInt32
      callHandler p (.onmethod connection method_name (params.bind s.read) id)
        (protocol.onmethod connection method_name params id) w
    else
      callHandler p (.onnotify connection method_name (params.bind s.read))
        (protocol.onnotify connection method_name params) w
  else .ok (w, [])

def jrpc_protocol_process (p : Platform) (protocol : JrpcProtocol H) (connection : Conn)
    (buffer : Bytes) (w : World H) : Except Fault (World H × List Event) :=
  let (json, request) := json_loadb p.lib buffer w.mach.json
  match request with
  | none => .ok (w, [])
  | some request => do
    let (w, out) ← dispatch p protocol connection request (w.setJson json)
    .ok (w.setJson (json_decref (some request) w.mach.json), out)

/-- The reasons of a callback that the server looks at, with what comes with them. For a
writable callback this is also what `lws_write` returns, if it is called. -/
inductive Reason
  | protocol_init
  | established
  | closed
  | receive (buffer : Bytes)
  | server_writeable (write_result : Int32)
  | raw_rx_file
  | other (reason : Nat)

/-- One call of `jrpc_protocol_callback`. `user` is the session storage, if there is any,
and `has_protocol` says that `lws_get_protocol` is not NULL. -/
structure Callback where
  wsi : Wsi
  reason : Reason
  user : Option Conn
  has_protocol : Bool

/-- The first message of a queue that is not empty is taken, written and disposed. The result
of the write is dropped. -/
def writeFirst (wsi : Wsi) (result : Int32) (connection : Conn) (m : Machine) :
    Except Fault (Machine × List Event) := do
  let (message, messages) ← jrpc_queue_dequeue m.heap (m.conns connection).messages
  match message with
  | none => .error .dangling
  | some message =>
    match m.heap.cells message with
    | none => .error .dangling
    | some cell => do
      let heap ← jrpc_message_dispose m.heap message
      .ok (m.setQueue connection heap messages,
        [.write wsi message cell.bytes result, .dispose message])

/-- The `switch` of the callback, for a session. -/
def handle (p : Platform) (protocol : JrpcProtocol H) (wsi : Wsi) (reason : Reason)
    (connection : Conn) (w : World H) : Except Fault (World H × List Event) :=
  match reason with
  | .protocol_init => .ok (w, [.adopt protocol.fd.1])
  | .established =>
    let mach := jrpc_connection_init connection protocol.server wsi w.mach
    callHandler p (.onconnected connection) (protocol.onconnected connection) { w with mach }
  | .closed => do
    let (w, out) ←
      callHandler p (.ondisconnected connection) (protocol.ondisconnected connection) w
    let (mach, disposed) ← jrpc_connection_cleanup connection w.mach
    .ok ({ w with mach }, out ++ disposed)
  | .receive buffer => jrpc_protocol_process p protocol connection buffer w
  | .server_writeable result =>
    if jrpc_queue_is_empty (w.mach.conns connection).messages then .ok (w, [])
    else do
      let (mach, out) ← writeFirst wsi result connection w.mach
      .ok ({ w with mach }, out)
  | .raw_rx_file => .ok (w, [.read protocol.fd.1])
  | .other _ => .ok (w, [])

/-- The `switch` of the callback, without a session. -/
def handleNull (protocol : JrpcProtocol H) : Reason → List Event
  | .protocol_init => [.adopt protocol.fd.1]
  | .raw_rx_file => [.read protocol.fd.1]
  | _ => []

/-- The end of the callback, for a session: a queue that is not empty asks to be written. -/
def requestWritable (wsi : Wsi) (connection : Conn) (w : World H) :
    Except Fault (World H × List Event) :=
  if jrpc_queue_is_empty (w.mach.conns connection).messages then .ok (w, [])
  else do
    let (mach, out) ← lws_callback_on_writable (some wsi) w.mach
    .ok ({ w with mach }, out)

/-- The state after the callback, what could be seen, and the value that it returned. -/
def jrpc_protocol_callback (p : Platform) (protocol : JrpcProtocol H) (cb : Callback)
    (w : World H) : Except Fault (World H × List Event × Int32) :=
  if !cb.has_protocol then .ok (w, [], 0)
  else
    match cb.user with
    | none => .ok (w, handleNull protocol cb.reason, 0)
    | some connection => do
      let (w, out) ← handle p protocol cb.wsi cb.reason connection w
      let (w, out') ← requestWritable cb.wsi connection w
      .ok (w, out ++ out', 0)

end jrpc.protocol

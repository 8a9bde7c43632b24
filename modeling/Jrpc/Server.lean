-- The server as a structure in memory: what is written when it is created, what the setters
-- change, the configuration that libwebsockets is given, and the calls that use the two
-- sockets. What is not written is what malloc left there.
import Jrpc.Service

open heap runs
open jrpc.json jrpc.message jrpc.queue jrpc.connection jrpc.protocol

namespace jrpc.server

variable {H : Type}

/-! ## The structures -/

/-- `struct jrpc_protocol` with all its members. -/
structure ServerProtocol (H : Type) extends JrpcProtocol H where
  user_data : Option Nat

/-- A pointer into the structure of the server. -/
inductive Inner
  | protocol
  | ws_protocols (index : Nat)
  | mount

inductive LwsCallbackFunction
  | lws_callback_http_dummy
  | jrpc_protocol_callback

/-- `struct lws_protocols`. The members that the server never sets are its `rest`. -/
structure LwsProtocols where
  name : Option Bytes
  callback : Option LwsCallbackFunction
  per_session_data_size : Nat
  user : Option Inner
  rest : Nat → UInt8

/-- `struct lws_http_mount`. -/
structure LwsHttpMount where
  mount_next : Option Inner
  mountpoint : Option Bytes
  origin : Option Bytes
  def_file : Option Bytes
  origin_protocol : UInt8
  mountpoint_len : UInt8
  rest : Nat → UInt8

/-- `struct lws_context_creation_info`. -/
structure LwsContextCreationInfo where
  port : Int32
  mounts : Option Inner
  protocols : Option Inner
  vhost_name : Option Bytes
  ws_ping_pong_interval : UInt16
  options : UInt64
  ssl_cert_filepath : Option Bytes
  ssl_private_key_filepath : Option Bytes
  rest : Nat → UInt8

/-- What `memset` makes of them. -/
def LwsProtocols.zero : LwsProtocols := ⟨none, none, 0, none, fun _ => 0⟩

def LwsHttpMount.zero : LwsHttpMount := ⟨none, none, none, none, 0, 0, fun _ => 0⟩

def LwsContextCreationInfo.zero : LwsContextCreationInfo :=
  ⟨0, none, none, none, 0, 0, none, none, fun _ => 0⟩

abbrev JRPC_SERVER_PROTOCOL_COUNT : Nat := 3

def JRPC_SERVER_DEFAULT_PORT : Int32 := 8080

def JRPC_SERVER_DEFAULT_PROTOCOL_NAME : Bytes := text "jrpc"

structure JrpcServer (H : Type) where
  protocol : ServerProtocol H
  ws_protocols : Fin JRPC_SERVER_PROTOCOL_COUNT → LwsProtocols
  mount : LwsHttpMount
  info : LwsContextCreationInfo
  context : Option Nat
  protocol_name : Option Bytes
  document_root : Option Bytes
  cert_path : Option Bytes
  key_path : Option Bytes
  port : Int32

/-- Constants that the headers of libwebsockets and the compiler give. -/
structure Headers where
  LWSMPRO_FILE : UInt8
  LWS_SERVER_OPTION_HTTP_HEADERS_SECURITY_BEST_PRACTICES_ENFORCE : UInt64
  LWS_SERVER_OPTION_DO_SSL_GLOBAL_INIT : UInt64
  sizeof_jrpc_connection : Nat

/-- All that `lws_create_context` can read. -/
structure Config where
  info : LwsContextCreationInfo
  ws_protocols : Fin JRPC_SERVER_PROTOCOL_COUNT → LwsProtocols
  mount : LwsHttpMount

/-- What can be seen of the server: the values that it returns, its calls of the system and of
libwebsockets, and what its callbacks do. -/
inductive Seen
  | returned (user_data : Option Nat)
  | lws_create_context (config : Config)
  | lws_service (context : Nat) (timeout_ms : Int32)
  | lws_context_destroy (context : Nat)
  | write (fd : Int32) (data : Bytes)
  | close (fd : Int32)
  | callback (event : Event)

/-! ## The functions of protocol.c that server.c calls -/

/-- `jrpc_server_protocol_init` on memory. When `socketpair` fails, it writes nothing. -/
def protocol_init (server : Nat) (fd : Option (Int32 × Int32)) (protocol : ServerProtocol H) :
    ServerProtocol H :=
  { protocol with
    toJrpcProtocol := jrpc_server_protocol_init server (fd.getD protocol.fd) }

def jrpc_protocol_cleanup (protocol : ServerProtocol H) : List Seen :=
  [.close protocol.fd.1, .close protocol.fd.2]

def jrpc_protocol_init_lws (headers : Headers) (lws_protocol : LwsProtocols) : LwsProtocols :=
  { lws_protocol with
    callback := some .jrpc_protocol_callback
    per_session_data_size := headers.sizeof_jrpc_connection
    user := some .protocol }

/-- The descriptor that `write` is given, and the byte. The result of the write is dropped. -/
def jrpc_protocol_wakeup (protocol : ServerProtocol H) : Int32 × Bytes := (protocol.fd.2, [42])

/-! ## The functions of server.c -/

def strdup (fails : Bool) (s : Bytes) : Option Bytes := if fails then none else some s

/-- All that is written before `lws_create_context` is called. -/
def jrpc_server_create_context (headers : Headers) (server : JrpcServer H) : JrpcServer H :=
  let http : LwsProtocols :=
    { LwsProtocols.zero with
      name := some (text "http")
      callback := some .lws_callback_http_dummy }
  let jrpc := jrpc_protocol_init_lws headers
    { LwsProtocols.zero with name := server.protocol_name }
  let mount : LwsHttpMount :=
    { LwsHttpMount.zero with
      mount_next := none
      mountpoint := some (text "/")
      origin := server.document_root
      def_file := some (text "index.html")
      origin_protocol := headers.LWSMPRO_FILE
      mountpoint_len := 1 }
  let info : LwsContextCreationInfo :=
    { LwsContextCreationInfo.zero with
      port := server.port
      mounts := some .mount
      protocols := some (.ws_protocols 0)
      vhost_name := some (text "localhost")
      ws_ping_pong_interval := 10
      options := headers.LWS_SERVER_OPTION_HTTP_HEADERS_SECURITY_BEST_PRACTICES_ENFORCE }
  let info :=
    if server.document_root.isNone then
      -- disable http
      { info with protocols := some (.ws_protocols 1), mounts := none }
    else info
  let info :=
    if server.cert_path.isSome && server.key_path.isSome then
      { info with
        options := info.options ||| headers.LWS_SERVER_OPTION_DO_SSL_GLOBAL_INIT
        ssl_cert_filepath := server.cert_path
        ssl_private_key_filepath := server.key_path }
    else info
  { server with
    ws_protocols := Function.update (Function.update (fun _ => LwsProtocols.zero) 0 http) 1 jrpc
    mount
    info }

def JrpcServer.config (server : JrpcServer H) : Config :=
  ⟨server.info, server.ws_protocols, server.mount⟩

/-- `memory` is what `malloc` gives: a block with its old contents, or NULL. `fd` is the pair of
`socketpair`, if it has one, and `fails` says that `strdup` has no memory. -/
def jrpc_server_create (memory : Option (JrpcServer H)) (address : Nat)
    (fd : Option (Int32 × Int32)) (fails : Bool) : Option (JrpcServer H) :=
  memory.map fun server =>
    { server with
      protocol := protocol_init address fd server.protocol
      protocol_name := strdup fails JRPC_SERVER_DEFAULT_PROTOCOL_NAME
      document_root := none
      cert_path := none
      key_path := none
      port := JRPC_SERVER_DEFAULT_PORT
      context := none }

def jrpc_server_dispose (server : JrpcServer H) : List Seen :=
  (server.context.map .lws_context_destroy).toList ++ jrpc_protocol_cleanup server.protocol

def jrpc_server_set_port (port : Int32) (server : JrpcServer H) : JrpcServer H :=
  { server with port }

def jrpc_server_set_onmethod (handler : Conn → Bytes → Option JsonRef → Int32 → UserProg H)
    (server : JrpcServer H) : JrpcServer H :=
  { server with protocol := { server.protocol with onmethod := handler } }

def jrpc_server_set_onnotify (handler : Conn → Bytes → Option JsonRef → UserProg H)
    (server : JrpcServer H) : JrpcServer H :=
  { server with protocol := { server.protocol with onnotify := handler } }

def jrpc_server_set_onconnected (handler : Conn → UserProg H) (server : JrpcServer H) :
    JrpcServer H :=
  { server with protocol := { server.protocol with onconnected := handler } }

def jrpc_server_set_ondisconnected (handler : Conn → UserProg H) (server : JrpcServer H) :
    JrpcServer H :=
  { server with protocol := { server.protocol with ondisconnected := handler } }

def jrpc_server_set_protocolname (fails : Bool) (protocol_name : Bytes) (server : JrpcServer H) :
    JrpcServer H :=
  { server with protocol_name := strdup fails protocol_name }

def jrpc_server_set_documentroot (fails : Bool) (document_root : Bytes) (server : JrpcServer H) :
    JrpcServer H :=
  { server with document_root := strdup fails document_root }

def jrpc_server_set_certpath (fails : Bool) (cert_path : Bytes) (server : JrpcServer H) :
    JrpcServer H :=
  { server with cert_path := strdup fails cert_path }

def jrpc_server_set_keypath (fails : Bool) (key_path : Bytes) (server : JrpcServer H) :
    JrpcServer H :=
  { server with key_path := strdup fails key_path }

def jrpc_server_set_userdata (user_data : Option Nat) (server : JrpcServer H) : JrpcServer H :=
  { server with protocol := { server.protocol with user_data } }

def jrpc_server_get_userdata (server : JrpcServer H) : Option Nat := server.protocol.user_data

/-- `created` is the context that `lws_create_context` makes, if it makes one. What
`lws_service` calls back comes as steps of their own. -/
def jrpc_server_run (headers : Headers) (timeout_ms : Int32) (created : Option Nat)
    (server : JrpcServer H) : JrpcServer H × List Seen :=
  let (server, out) :=
    match server.context with
    | some _ => (server, [])
    | none =>
      let server := jrpc_server_create_context headers server
      ({ server with context := created }, [Seen.lws_create_context server.config])
  match server.context with
  | some context => (server, out ++ [.lws_service context timeout_ms])
  | none => (server, out)

def jrpc_server_wakeup (server : JrpcServer H) : Int32 × Bytes :=
  jrpc_protocol_wakeup server.protocol

/-! ## Calls in any order -/

/-- A call of the server, or what happens on its thread: a callback, or other user code. -/
inductive Act (H : Type)
  | set_port (port : Int32)
  | set_onmethod (handler : Conn → Bytes → Option JsonRef → Int32 → UserProg H)
  | set_onnotify (handler : Conn → Bytes → Option JsonRef → UserProg H)
  | set_onconnected (handler : Conn → UserProg H)
  | set_ondisconnected (handler : Conn → UserProg H)
  | set_protocolname (fails : Bool) (protocol_name : Bytes)
  | set_documentroot (fails : Bool) (document_root : Bytes)
  | set_certpath (fails : Bool) (cert_path : Bytes)
  | set_keypath (fails : Bool) (key_path : Bytes)
  | set_userdata (user_data : Option Nat)
  | get_userdata
  | run (timeout_ms : Int32) (created : Option Nat)
  | wakeup
  | dispose
  | input (input : service.Input H)

/-- The block of the server, until it is freed, and all other memory. -/
structure State (H : Type) where
  block : Option (JrpcServer H)
  world : World H

/-- The server under libwebsockets with the handlers that are set. -/
def JrpcServer.env (env : service.Env H) (server : JrpcServer H) : service.Env H :=
  { env with protocol := server.protocol.toJrpcProtocol }

/-- Callbacks come when libwebsockets wants, and handlers may call the server again, so the acts
come in any order. -/
def step (headers : Headers) (env : service.Env H) (s : State H) (act : Act H) :
    Except Fault (State H × List Seen) :=
  match s.block with
  | none => .error .misuse
  | some server =>
    let set := fun server => Except.ok ({ s with block := some server }, [])
    match act with
    | .set_port port => set (jrpc_server_set_port port server)
    | .set_onmethod handler => set (jrpc_server_set_onmethod handler server)
    | .set_onnotify handler => set (jrpc_server_set_onnotify handler server)
    | .set_onconnected handler => set (jrpc_server_set_onconnected handler server)
    | .set_ondisconnected handler => set (jrpc_server_set_ondisconnected handler server)
    | .set_protocolname fails name => set (jrpc_server_set_protocolname fails name server)
    | .set_documentroot fails root => set (jrpc_server_set_documentroot fails root server)
    | .set_certpath fails path => set (jrpc_server_set_certpath fails path server)
    | .set_keypath fails path => set (jrpc_server_set_keypath fails path server)
    | .set_userdata user_data => set (jrpc_server_set_userdata user_data server)
    | .get_userdata => .ok (s, [.returned (jrpc_server_get_userdata server)])
    | .run timeout_ms created =>
      let (server, out) := jrpc_server_run headers timeout_ms created server
      .ok ({ s with block := some server }, out)
    | .wakeup =>
      let (fd, data) := jrpc_server_wakeup server
      .ok (s, [.write fd data])
    | .dispose => .ok ({ s with block := none }, jrpc_server_dispose server)
    | .input i => do
      let (world, out) ← service.step (server.env env) s.world i
      .ok ({ s with world }, out.map .callback)

/-- A server that was just created. -/
def created (memory : Option (JrpcServer H)) (address : Nat) (fd : Option (Int32 × Int32))
    (fails : Bool) (world : World H) : State H :=
  ⟨jrpc_server_create memory address fd fails, world⟩

/-! ## What an act keeps -/

theorem run_protocol (headers : Headers) (timeout_ms : Int32) (created : Option Nat)
    (server : JrpcServer H) :
    (jrpc_server_run headers timeout_ms created server).1.protocol = server.protocol := by
  unfold jrpc_server_run
  rcases server.context with _ | context
  · cases created <;> rfl
  · dsimp only
    split <;> rfl

theorem run_seen (headers : Headers) (timeout_ms : Int32) (created : Option Nat)
    (server : JrpcServer H) (event : Event) :
    .callback event ∉ (jrpc_server_run headers timeout_ms created server).2 := by
  unfold jrpc_server_run
  rcases server.context with _ | context
  · cases created <;> simp
  · dsimp only
    split <;> simp

/-- The pair stays what it was until the server is disposed. -/
theorem step_pair {headers : Headers} {env : service.Env H} {server : JrpcServer H}
    {w : World H} {act : Act H} {s : State H} {out : List Seen} (hact : act ≠ .dispose)
    (h : step headers env ⟨some server, w⟩ act = .ok (s, out)) :
    ∃ server', s.block = some server' ∧ server'.protocol.fd = server.protocol.fd := by
  cases act with
  | run timeout_ms created =>
    cases h
    exact ⟨_, rfl, congrArg (·.fd) (run_protocol headers timeout_ms created server)⟩
  | dispose => exact absurd rfl hact
  | input i =>
    obtain ⟨⟨world, o⟩, _, h⟩ := bind_eq_ok.mp h
    cases h
    exact ⟨server, rfl, rfl⟩
  | _ =>
    cases h
    exact ⟨_, rfl, rfl⟩

/-! ## A server with little in it -/

def sampleHeaders : Headers := ⟨2, 8, 4096, 64⟩

/-- A block with zeros, up to the pair and the user data. -/
def sampleMemory (fd : Int32 × Int32) (user_data : Option Nat) : JrpcServer Unit where
  protocol := { jrpc_server_protocol_init 0 fd with user_data }
  ws_protocols := fun _ => .zero
  mount := .zero
  info := .zero
  context := none
  protocol_name := none
  document_root := none
  cert_path := none
  key_path := none
  port := 0

end jrpc.server

-- What a server offers to the network, and when. In whatever order it is set up and run, what
-- it does depends on the calls so far in one way only: what was set last counts, and the first
-- context that libwebsockets makes is the one for the rest of its life.
import Jrpc.Delivery
import Jrpc.Server

open heap runs
open jrpc.json jrpc.message jrpc.queue jrpc.connection jrpc.protocol

namespace jrpc.server

variable {H : Type}

/-! ## What libwebsockets finds -/

/-- Files below a directory that are served at a path. -/
structure Site where
  path : Bytes
  root : Bytes
  first : Bytes

/-- What a configuration offers to the network. -/
structure Offer where
  port : Int32
  host : Option Bytes
  ping : UInt16
  protocols : List LwsProtocols
  sites : List Site
  tls : Option (Bytes × Bytes)

/-- The protocols end before the first one without a callback. If there is none, libwebsockets
reads beyond the array. -/
def readProtocols : List LwsProtocols → Option (List LwsProtocols)
  | [] => none
  | p :: ps => if p.callback.isNone then some [] else (readProtocols ps).map (p :: ·)

def Config.protocols (config : Config) : Option (List LwsProtocols) :=
  match config.info.protocols with
  | some (.ws_protocols index) => readProtocols ((List.ofFn config.ws_protocols).drop index)
  | _ => none

def LwsHttpMount.site (headers : Headers) (mount : LwsHttpMount) : Option Site :=
  match mount.mountpoint, mount.origin, mount.def_file with
  | some path, some root, some first =>
    if mount.origin_protocol = headers.LWSMPRO_FILE ∧ mount.mountpoint_len.toNat = path.length then
      some ⟨path, root, first⟩
    else none
  | _, _, _ => none

/-- The list of mounts. There is one structure for them, so it is the last one. -/
def Config.sites (headers : Headers) (config : Config) : Option (List Site) :=
  match config.info.mounts with
  | none => some []
  | some .mount =>
    if config.mount.mount_next.isNone then (config.mount.site headers).map ([·]) else none
  | _ => none

/-- The certificate and the key, if the option for them is given. -/
def Config.tls (headers : Headers) (config : Config) : Option (Option (Bytes × Bytes)) :=
  if config.info.options &&& headers.LWS_SERVER_OPTION_DO_SSL_GLOBAL_INIT = 0 then some none
  else
    match config.info.ssl_cert_filepath, config.info.ssl_private_key_filepath with
    | some cert, some key => some (some (cert, key))
    | _, _ => none

/-- All of that, if it can be read. -/
def Config.offer (headers : Headers) (config : Config) : Option Offer :=
  config.protocols.bind fun protocols =>
  (config.sites headers).bind fun sites =>
  (config.tls headers).map fun tls =>
  ⟨config.info.port, config.info.vhost_name, config.info.ws_ping_pong_interval, protocols, sites,
    tls⟩

/-- The two options are bits of their own. -/
def Headers.Apart (headers : Headers) : Prop :=
  headers.LWS_SERVER_OPTION_DO_SSL_GLOBAL_INIT ≠ 0 ∧
    headers.LWS_SERVER_OPTION_HTTP_HEADERS_SECURITY_BEST_PRACTICES_ENFORCE &&&
      headers.LWS_SERVER_OPTION_DO_SSL_GLOBAL_INIT = 0

/-! ## What was set -/

structure Settings where
  port : Int32
  protocol_name : Option Bytes
  document_root : Option Bytes
  cert_path : Option Bytes
  key_path : Option Bytes

def Act.port : Act H → Option Int32
  | .set_port port => some port
  | _ => none

def Act.protocol_name : Act H → Option (Option Bytes)
  | .set_protocolname fails name => some (strdup fails name)
  | _ => none

def Act.document_root : Act H → Option (Option Bytes)
  | .set_documentroot fails root => some (strdup fails root)
  | _ => none

def Act.cert_path : Act H → Option (Option Bytes)
  | .set_certpath fails path => some (strdup fails path)
  | _ => none

def Act.key_path : Act H → Option (Option Bytes)
  | .set_keypath fails path => some (strdup fails path)
  | _ => none

def Act.user_data : Act H → Option (Option Nat)
  | .set_userdata user_data => some user_data
  | _ => none

def Act.onmethod : Act H → Option (Conn → Bytes → Option JsonRef → Int32 → UserProg H)
  | .set_onmethod handler => some handler
  | _ => none

def Act.onnotify : Act H → Option (Conn → Bytes → Option JsonRef → UserProg H)
  | .set_onnotify handler => some handler
  | _ => none

def Act.onconnected : Act H → Option (Conn → UserProg H)
  | .set_onconnected handler => some handler
  | _ => none

def Act.ondisconnected : Act H → Option (Conn → UserProg H)
  | .set_ondisconnected handler => some handler
  | _ => none

/-- The context that an act may make. -/
def Act.context : Act H → Option Nat
  | .run _ created => created
  | _ => none

/-- The settings after these acts. `fails` says that the first `strdup` had no memory. -/
def settingsOf (fails : Bool) (acts : List (Act H)) : Settings where
  port := lastOf Act.port JRPC_SERVER_DEFAULT_PORT acts
  protocol_name :=
    lastOf Act.protocol_name (strdup fails JRPC_SERVER_DEFAULT_PROTOCOL_NAME) acts
  document_root := lastOf Act.document_root none acts
  cert_path := lastOf Act.cert_path none acts
  key_path := lastOf Act.key_path none acts

/-- The handlers after these acts. -/
def protocolOf (address : Nat) (fd : Int32 × Int32) (acts : List (Act H)) : JrpcProtocol H where
  server := address
  onmethod := lastOf Act.onmethod jrpc_default_onmethod acts
  onnotify := lastOf Act.onnotify jrpc_default_onnotify acts
  onconnected := lastOf Act.onconnected jrpc_default_onconnected acts
  ondisconnected := lastOf Act.ondisconnected jrpc_default_ondisconnected acts
  fd

/-- The first context that was made. -/
def contextOf (acts : List (Act H)) : Option Nat := acts.findSome? Act.context

/-- Web sockets are always offered. Files are when a directory was set, and then there is the
protocol for them too. A certificate counts together with its key only. -/
def Settings.offer (headers : Headers) (settings : Settings) : Offer where
  port := settings.port
  host := some (text "localhost")
  ping := 10
  protocols :=
    (settings.document_root.map fun _ =>
      { LwsProtocols.zero with
        name := some (text "http")
        callback := some .lws_callback_http_dummy }).toList ++
    [{ LwsProtocols.zero with
        name := settings.protocol_name
        callback := some .jrpc_protocol_callback
        per_session_data_size := headers.sizeof_jrpc_connection
        user := some .protocol }]
  sites :=
    (settings.document_root.map fun root => ⟨text "/", root, text "index.html"⟩).toList
  tls := settings.cert_path.bind fun cert => settings.key_path.map fun key => (cert, key)

/-! ## The configuration -/

def JrpcServer.settings (server : JrpcServer H) : Settings :=
  ⟨server.port, server.protocol_name, server.document_root, server.cert_path, server.key_path⟩

/-- The option for a certificate can be read back. -/
theorem Headers.Apart.with_tls {headers : Headers} (h : headers.Apart) :
    (headers.LWS_SERVER_OPTION_HTTP_HEADERS_SECURITY_BEST_PRACTICES_ENFORCE |||
      headers.LWS_SERVER_OPTION_DO_SSL_GLOBAL_INIT) &&&
        headers.LWS_SERVER_OPTION_DO_SSL_GLOBAL_INIT ≠ 0 := by
  intro hn
  apply h.1
  rw [← hn]
  apply UInt64.eq_of_toBitVec_eq
  ext i
  simp only [UInt64.toBitVec_and, UInt64.toBitVec_or, BitVec.getElem_and, BitVec.getElem_or]
  exact Bool.eq_and_self.mpr fun hbit => (by rw [hbit, Bool.or_true])

theorem offers_protocols (headers : Headers) (server : JrpcServer H) :
    (jrpc_server_create_context headers server).config.protocols =
      some (server.settings.offer headers).protocols := by
  obtain ⟨protocol, ws_protocols, mount, info, context, protocol_name, document_root, cert_path,
    key_path, port⟩ := server
  rcases document_root with _ | root
  · -- the second protocol comes first
    rcases cert_path with _ | cert
    · rfl
    · rcases key_path with _ | key <;> rfl
  · rcases cert_path with _ | cert
    · rfl
    · rcases key_path with _ | key <;> rfl

theorem offers_sites (headers : Headers) (server : JrpcServer H) :
    (jrpc_server_create_context headers server).config.sites headers =
      some (server.settings.offer headers).sites := by
  obtain ⟨protocol, ws_protocols, mount, info, context, protocol_name, document_root, cert_path,
    key_path, port⟩ := server
  rcases document_root with _ | root
  · rcases cert_path with _ | cert
    · rfl
    · rcases key_path with _ | key <;> rfl
  · have hsite : LwsHttpMount.site headers
        ⟨none, some (text "/"), some root, some (text "index.html"), headers.LWSMPRO_FILE, 1,
          fun _ => 0⟩ = some ⟨text "/", root, text "index.html"⟩ := if_pos ⟨rfl, rfl⟩
    rcases cert_path with _ | cert
    · exact congrArg (·.map ([·])) hsite
    · rcases key_path with _ | key <;> exact congrArg (·.map ([·])) hsite

theorem offers_tls {headers : Headers} (hbits : headers.Apart) (server : JrpcServer H) :
    (jrpc_server_create_context headers server).config.tls headers =
      some (server.settings.offer headers).tls := by
  obtain ⟨protocol, ws_protocols, mount, info, context, protocol_name, document_root, cert_path,
    key_path, port⟩ := server
  rcases cert_path with _ | cert
  · rcases document_root with _ | root <;> exact if_pos hbits.2
  · rcases key_path with _ | key
    · rcases document_root with _ | root <;> exact if_pos hbits.2
    · rcases document_root with _ | root <;> exact if_neg hbits.with_tls

/-- The configuration can be read, and says what is set. -/
theorem create_context_offers {headers : Headers} (hbits : headers.Apart) (server : JrpcServer H) :
    (jrpc_server_create_context headers server).config.offer headers =
      some (server.settings.offer headers) := by
  unfold Config.offer
  rw [offers_protocols, offers_sites, offers_tls hbits]
  unfold jrpc_server_create_context JrpcServer.config
  dsimp only
  split <;> split <;> rfl

/-! ## What each act does -/

/-- What the server holds after these acts. -/
structure SetUp (fails : Bool) (address : Nat) (fd : Int32 × Int32) (user_data : Option Nat)
    (acts : List (Act H)) (server : JrpcServer H) : Prop where
  settings : server.settings = settingsOf fails acts
  protocol : server.protocol.toJrpcProtocol = protocolOf address fd acts
  user_data : server.protocol.user_data = lastOf Act.user_data user_data acts
  context : server.context = contextOf acts

theorem contextOf_snoc (acts : List (Act H)) (act : Act H) :
    contextOf (acts ++ [act]) = (contextOf acts).or act.context := by
  unfold contextOf
  rw [List.findSome?_append]
  cases h : act.context <;> simp [h]

/-- What an act does depends on the acts before it. -/
def Does (headers : Headers) (env : service.Env H) (fails : Bool) (address : Nat)
    (fd : Int32 × Int32) (user_data : Option Nat) (before : List (Act H)) (w w' : World H)
    (out : List Seen) : Act H → Prop
  | .run timeout_ms created =>
    w' = w ∧
      match contextOf before with
      | some context => out = [.lws_service context timeout_ms]
      | none =>
        ∃ config, out = .lws_create_context config ::
            (created.map fun context => .lws_service context timeout_ms).toList ∧
          config.offer headers = some ((settingsOf fails before).offer headers)
  | .get_userdata => w' = w ∧ out = [.returned (lastOf Act.user_data user_data before)]
  | .wakeup => w' = w ∧ out = [.write fd.2 [42]]
  | .dispose =>
    w' = w ∧
      out = ((contextOf before).map .lws_context_destroy).toList ++ [.close fd.1, .close fd.2]
  | .input i =>
    ∃ events, service.step { env with protocol := protocolOf address fd before } w i =
        .ok (w', events) ∧ out = events.map .callback
  | _ => w' = w ∧ out = []

/-- A context is made in a run of the server only, and with what is set then. -/
theorem Does.creates {headers : Headers} {env : service.Env H} {fails : Bool} {address : Nat}
    {fd : Int32 × Int32} {user_data : Option Nat} {before : List (Act H)} {w w' : World H}
    {out : List Seen} {act : Act H}
    (h : Does headers env fails address fd user_data before w w' out act) {config : Config}
    (hconfig : .lws_create_context config ∈ out) :
    (∃ timeout_ms made, act = .run timeout_ms made) ∧
      config.offer headers = some ((settingsOf fails before).offer headers) := by
  cases act with
  | run timeout_ms made =>
    refine ⟨⟨timeout_ms, made, rfl⟩, ?_⟩
    obtain ⟨_, hout⟩ := h
    rcases hcontext : contextOf before with _ | context
    · rw [hcontext] at hout
      obtain ⟨config', rfl, hoffer⟩ := hout
      rcases List.mem_cons.mp hconfig with he | hmem
      · cases he
        exact hoffer
      · obtain ⟨context, _, he⟩ := Option.map_eq_some_iff.mp (Option.mem_toList.mp hmem)
        cases he
    · rw [hcontext] at hout
      rw [hout] at hconfig
      simp at hconfig
  | input i =>
    obtain ⟨events, _, rfl⟩ := h
    simp at hconfig
  | dispose =>
    obtain ⟨_, rfl⟩ := h
    simp at hconfig
  | _ =>
    obtain ⟨_, rfl⟩ := h
    simp at hconfig

variable {headers : Headers} {env : service.Env H} {fails : Bool} {address : Nat}
  {fd : Int32 × Int32} {user_data : Option Nat}

theorem setUp_created (memory : JrpcServer H) (address : Nat) (fd : Option (Int32 × Int32))
    (fails : Bool) (world : World H) :
    ∃ server, created (some memory) address fd fails world = ⟨some server, world⟩ ∧
      SetUp fails address (fd.getD memory.protocol.fd) memory.protocol.user_data [] server :=
  ⟨_, rfl, rfl, rfl, rfl, rfl⟩

/-- An act sets what it says, and leaves all other settings as they were. -/
def Settings.after (act : Act H) (settings : Settings) : Settings where
  port := act.port.getD settings.port
  protocol_name := act.protocol_name.getD settings.protocol_name
  document_root := act.document_root.getD settings.document_root
  cert_path := act.cert_path.getD settings.cert_path
  key_path := act.key_path.getD settings.key_path

def handlersAfter (act : Act H) (protocol : JrpcProtocol H) : JrpcProtocol H :=
  { protocol with
    onmethod := act.onmethod.getD protocol.onmethod
    onnotify := act.onnotify.getD protocol.onnotify
    onconnected := act.onconnected.getD protocol.onconnected
    ondisconnected := act.ondisconnected.getD protocol.ondisconnected }

theorem SetUp.snoc {before : List (Act H)} {server server' : JrpcServer H}
    (h : SetUp fails address fd user_data before server) {act : Act H}
    (hsettings : server'.settings = server.settings.after act)
    (hprotocol : server'.protocol.toJrpcProtocol =
      handlersAfter act server.protocol.toJrpcProtocol)
    (huser : server'.protocol.user_data = act.user_data.getD server.protocol.user_data)
    (hcontext : server'.context = server.context.or act.context) :
    SetUp fails address fd user_data (before ++ [act]) server' where
  settings := by
    rw [hsettings, h.settings]
    simp [settingsOf, Settings.after]
  protocol := by
    rw [hprotocol, h.protocol]
    simp [protocolOf, handlersAfter]
  user_data := by
    rw [huser, h.user_data, lastOf_snoc]
  context := by
    rw [hcontext, h.context, contextOf_snoc]

theorem run_settings (timeout_ms : Int32) (made : Option Nat) (server : JrpcServer H) :
    (jrpc_server_run headers timeout_ms made server).1.settings = server.settings := by
  unfold jrpc_server_run
  rcases server.context with _ | context
  · cases made <;> rfl
  · dsimp only
    split <;> rfl

theorem run_context (timeout_ms : Int32) (made : Option Nat) (server : JrpcServer H) :
    (jrpc_server_run headers timeout_ms made server).1.context = server.context.or made := by
  unfold jrpc_server_run
  rcases hcontext : server.context with _ | context
  · cases made <;> rfl
  · dsimp only
    rw [hcontext]
    exact hcontext

theorem run_starts (timeout_ms : Int32) (made : Option Nat) {server : JrpcServer H}
    (h : server.context = none) :
    (jrpc_server_run headers timeout_ms made server).2 =
      .lws_create_context (jrpc_server_create_context headers server).config ::
        (made.map fun context => .lws_service context timeout_ms).toList := by
  unfold jrpc_server_run
  rw [h]
  cases made <;> rfl

theorem run_serves (timeout_ms : Int32) (made : Option Nat) {server : JrpcServer H}
    {context : Nat} (h : server.context = some context) :
    (jrpc_server_run headers timeout_ms made server).2 = [.lws_service context timeout_ms] := by
  unfold jrpc_server_run
  rw [h]
  dsimp only
  rw [h]
  rfl

/-- A call of the server adds to what was set, and does what it should. -/
theorem SetUp.step (hbits : headers.Apart) {before : List (Act H)} {server : JrpcServer H}
    {w : World H} (h : SetUp fails address fd user_data before server) {act : Act H} {s : State H}
    {out : List Seen} (hs : step headers env ⟨some server, w⟩ act = .ok (s, out)) :
    Does headers env fails address fd user_data before w s.world out act ∧
      ∀ server', s.block = some server' →
        SetUp fails address fd user_data (before ++ [act]) server' := by
  have hpair : server.protocol.fd = fd := congrArg (·.fd) h.protocol
  cases act with
  | run timeout_ms made =>
    cases hs
    refine ⟨⟨rfl, ?_⟩, ?_⟩
    · rcases hcontext : contextOf before with _ | context
      · have hserver : server.context = none := h.context.trans hcontext
        exact ⟨_, run_starts timeout_ms made hserver,
          (create_context_offers hbits server).trans (by rw [h.settings])⟩
      · exact run_serves timeout_ms made (h.context.trans hcontext)
    · rintro server' hblock
      cases hblock
      have hprotocol := run_protocol headers timeout_ms made server
      exact h.snoc (run_settings _ _ _) (congrArg (·.toJrpcProtocol) hprotocol)
        (congrArg (·.user_data) hprotocol) (run_context _ _ _)
  | get_userdata =>
    cases hs
    refine ⟨⟨rfl, ?_⟩, ?_⟩
    · exact congrArg (fun user_data => [Seen.returned user_data]) h.user_data
    · rintro server' hblock
      cases hblock
      exact h.snoc rfl rfl rfl Option.or_none.symm
  | wakeup =>
    cases hs
    refine ⟨⟨rfl, ?_⟩, ?_⟩
    · rw [← hpair]
    · rintro server' hblock
      cases hblock
      exact h.snoc rfl rfl rfl Option.or_none.symm
  | dispose =>
    cases hs
    refine ⟨⟨rfl, ?_⟩, ?_⟩
    · rw [← hpair, ← h.context]
      rfl
    · rintro server' hblock
      cases hblock
  | input i =>
    obtain ⟨⟨world, events⟩, hinput, hs⟩ := bind_eq_ok.mp hs
    cases hs
    refine ⟨⟨events, ?_, rfl⟩, ?_⟩
    · rw [← h.protocol]
      exact hinput
    · rintro server' hblock
      cases hblock
      exact h.snoc rfl rfl rfl Option.or_none.symm
  | _ =>
    -- a setter
    cases hs
    refine ⟨⟨rfl, rfl⟩, ?_⟩
    rintro server' hblock
    cases hblock
    exact h.snoc rfl rfl rfl Option.or_none.symm

/-! ## Whole lives -/

/-- The server is set up as the acts say, or it was disposed. -/
theorem run_setUp (hbits : headers.Apart) {server : JrpcServer H} {w : World H}
    (h : SetUp fails address fd user_data [] server) {acts : List (Act H)} {s : State H}
    {out : List Seen} (hr : run (step headers env) ⟨some server, w⟩ acts = .ok (s, out)) :
    ∀ server', s.block = some server' → SetUp fails address fd user_data acts server' := by
  have hstart : ∀ server', (⟨some server, w⟩ : State H).block = some server' →
      SetUp fails address fd user_data [] server' := by
    rintro server' hblock
    cases hblock
    exact h
  have hend := run_invariant_inputs
    (fun acts (s : State H) (_ : List Seen) => ∀ server', s.block = some server' →
      SetUp fails address fd user_data acts server')
    (fun acts s hist act s' o hs hstep => ?_) (h := []) hstart hr
  · rwa [List.nil_append] at hend
  · obtain ⟨block, w'⟩ := s
    rcases block with _ | server
    · cases hstep
    · exact ((hs server rfl).step hbits hstep).2

/-- After any acts, the next one does what it should. -/
theorem run_does (hbits : headers.Apart) {server : JrpcServer H} {w : World H}
    (h : SetUp fails address fd user_data [] server) {before : List (Act H)} {s s' : State H}
    {out out' : List Seen} (hr : run (step headers env) ⟨some server, w⟩ before = .ok (s, out))
    {act : Act H} (hs : step headers env s act = .ok (s', out')) :
    Does headers env fails address fd user_data before s.world s'.world out' act := by
  obtain ⟨block, w'⟩ := s
  rcases block with _ | server'
  · cases hs
  · exact ((run_setUp hbits h hr server' rfl).step hbits hs).1

theorem dispose_gone {s s' : State H} {out : List Seen}
    (hs : step headers env s .dispose = .ok (s', out)) : s'.block = none := by
  obtain ⟨block, w⟩ := s
  rcases block with _ | server
  · cases hs
  · cases hs
    rfl

/-- What a server does at any moment of its life is determined by the calls before it. The
configuration of its context is what was set last, a second context is made only when there is
none, the handlers are the ones that were set last, and the end gives back the context and both
sockets, after which there are no calls. -/
theorem server_does_what_was_set (headers : Headers) (hbits : headers.Apart) (env : service.Env H)
    (memory : JrpcServer H) (address : Nat) (fd : Option (Int32 × Int32)) (fails : Bool)
    (world : World H) {before after : List (Act H)} {act : Act H} {s : State H} {out : List Seen}
    (hr : run (step headers env) (created (some memory) address fd fails world)
      (before ++ act :: after) = .ok (s, out)) :
    ∃ s1 s2 out1 o out2,
      run (step headers env) (created (some memory) address fd fails world) before =
        .ok (s1, out1) ∧
      step headers env s1 act = .ok (s2, o) ∧ out = out1 ++ o ++ out2 ∧
      Does headers env fails address (fd.getD memory.protocol.fd) memory.protocol.user_data before
        s1.world s2.world o act ∧
      (act = .dispose → after = [] ∧ out2 = []) := by
  obtain ⟨server, hcreated, hsetUp⟩ := setUp_created memory address fd fails world
  rw [hcreated] at hr ⊢
  obtain ⟨s1, out1, o', hbefore, hrest, rfl⟩ := run_append_ok.mp hr
  obtain ⟨s2, o, out2, hact, hafter, rfl⟩ := run_cons_ok.mp hrest
  refine ⟨s1, s2, out1, o, out2, hbefore, hact, (List.append_assoc _ _ _).symm,
    run_does hbits hsetUp hbefore hact, fun hdispose => ?_⟩
  subst hdispose
  cases after with
  | nil =>
    cases hafter
    exact ⟨rfl, rfl⟩
  | cons next after =>
    obtain ⟨s3, _, _, hnext, _, _⟩ := run_cons_ok.mp hafter
    unfold jrpc.server.step at hnext
    rw [dispose_gone hact] at hnext
    cases hnext

/-- Acts before a context is made, and after that. -/
def sampleBefore : List (Act Unit) :=
  [.set_port 1, .set_documentroot false (text "www"), .set_certpath false (text "cert"),
    .run 1000 none, .set_port 2, .set_keypath false (text "key")]

def sampleAfter : List (Act Unit) := [.set_port 3, .run 1000 none, .dispose]

/-- The first context cannot be made. The second one is, with the settings of that time. -/
theorem server_does_what_was_set_sample :
    ∃ s out config, run (step sampleHeaders (service.sample []))
        (created (some (sampleMemory (3, 4) none)) 0 none false service.sampleStart)
        (sampleBefore ++ .run 1000 (some 5) :: sampleAfter) = .ok (s, out) ∧
      .lws_create_context config ∈ out ∧
      (config.offer sampleHeaders).map (fun offer => (offer.port, offer.tls)) =
        some (2, some (text "cert", text "key")) := by
  have hbits : sampleHeaders.Apart := ⟨by decide, by decide⟩
  obtain ⟨_, _, out1, o, out2, _, _, hout, hdoes, _⟩ := server_does_what_was_set sampleHeaders
    hbits (service.sample []) (sampleMemory (3, 4) none) 0 none false service.sampleStart
    (rfl : run _ _ (sampleBefore ++ .run 1000 (some 5) :: sampleAfter) = _)
  obtain ⟨_, config, ho, hoffer⟩ := hdoes
  refine ⟨_, _, config, rfl, ?_, ?_⟩
  · rw [hout, ho]
    simp
  · rw [hoffer]
    rfl

end jrpc.server

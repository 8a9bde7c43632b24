-- What malloc left in the block of the server. Two servers that run side by side on blocks with
-- different contents do the same, except where the pair of sockets or the user data is read
-- before it was written.
import Jrpc.Delivery
import Jrpc.Server

open heap runs
open jrpc.json jrpc.message jrpc.queue jrpc.connection jrpc.protocol

namespace jrpc.server

variable {H : Type}

/-! ## What is left over -/

/-- The members that jrpc_server_create does not write on every path. -/
structure Leftover where
  fd : Int32 × Int32
  user_data : Option Nat
  config : Config

/-- A server with other leftovers. -/
def JrpcServer.over (server : JrpcServer H) (m : Leftover) : JrpcServer H :=
  { server with
    protocol := { server.protocol with fd := m.fd, user_data := m.user_data }
    ws_protocols := m.config.ws_protocols
    mount := m.config.mount
    info := m.config.info }

def JrpcServer.leftover (server : JrpcServer H) : Leftover :=
  ⟨server.protocol.fd, server.protocol.user_data, server.config⟩

/-- Whatever the block held, the servers differ in leftovers only. -/
theorem create_over (memory memory' : JrpcServer H) (address : Nat) (fd : Option (Int32 × Int32))
    (fails : Bool) (world : World H) :
    ∃ server, created (some memory) address fd fails world = ⟨some server, world⟩ ∧
      created (some memory') address fd fails world =
        ⟨some (server.over { memory'.leftover with fd := fd.getD memory'.protocol.fd }), world⟩ ∧
      server.protocol.fd = fd.getD memory.protocol.fd ∧
      server.protocol.user_data = memory.protocol.user_data :=
  ⟨_, rfl, rfl, rfl, rfl⟩

/-! ## Acts that read the leftovers -/

/-- The event with which a callback starts that uses the pair. -/
def pairEvent : service.Input H → Option (Int32 → Event)
  | .callback ⟨_, .protocol_init, _, true⟩ => some .adopt
  | .callback ⟨_, .raw_rx_file, _, true⟩ => some .read
  | _ => none

/-- The act reads from the pair, writes to it, or closes it. -/
def usesPair : Act H → Bool
  | .wakeup => true
  | .dispose => true
  | .input (.callback ⟨_, .raw_rx_file, _, has_protocol⟩) => has_protocol
  | _ => false

def getsData : Act H → Bool
  | .get_userdata => true
  | _ => false

def setsData : Act H → Bool
  | .set_userdata _ => true
  | _ => false

/-- The user data is asked for before it is set. -/
def asksEarly : List (Act H) → Bool
  | [] => false
  | act :: acts => getsData act || (!setsData act && asksEarly acts)

/-- All that counts: the descriptor that is handed to libwebsockets does not. -/
def counts : Seen → Bool
  | .callback (.adopt _) => false
  | _ => true

/-- A callback that does not use the pair does not depend on it. -/
theorem input_over (env : service.Env H) (server : JrpcServer H) (m : Leftover) (w : World H)
    {i : service.Input H} (hi : pairEvent i = none) :
    service.step ((server.over m).env env) w i = service.step (server.env env) w i := by
  cases i with
  | user prog => rfl
  | callback cb =>
    obtain ⟨wsi, reason, user, has_protocol⟩ := cb
    cases has_protocol with
    | false => rfl
    | true =>
      cases reason with
      | protocol_init => cases hi
      | raw_rx_file => cases hi
      | _ => cases user <;> rfl

/-- The `switch` for a callback that uses the pair. -/
theorem handle_pair {wsi : Wsi} {reason : Reason} {user : Option Conn} {e : Int32 → Event}
    (hi : pairEvent (.callback ⟨wsi, reason, user, true⟩ : service.Input H) = some e) :
    (∀ (p : Platform) (protocol : JrpcProtocol H) (c : Conn) (w : World H),
      handle p protocol wsi reason c w = .ok (w, [e protocol.fd.1])) ∧
    ∀ protocol : JrpcProtocol H, handleNull protocol reason = [e protocol.fd.1] := by
  cases reason with
  | protocol_init =>
    cases hi
    exact ⟨fun _ _ _ _ => rfl, fun _ => rfl⟩
  | raw_rx_file =>
    cases hi
    exact ⟨fun _ _ _ _ => rfl, fun _ => rfl⟩
  | _ => cases hi

theorem requestWritable_ok (wsi : Wsi) (c : Conn) (w : World H) :
    ∃ w' out, requestWritable wsi c w = .ok (w', out) := by
  unfold requestWritable
  split
  · exact ⟨_, _, rfl⟩
  · exact ⟨_, _, rfl⟩

/-- A callback that uses the pair starts with it, and does nothing else that depends on it. -/
theorem input_pair (env : service.Env H) (server : JrpcServer H) (w : World H)
    {i : service.Input H} {e : Int32 → Event} (hi : pairEvent i = some e) :
    (∃ w' rest, ∀ m, service.step ((server.over m).env env) w i = .ok (w', e m.fd.1 :: rest)) ∨
      ∀ m, service.step ((server.over m).env env) w i = .error .misuse := by
  cases i with
  | user prog => cases hi
  | callback cb =>
    obtain ⟨wsi, reason, user, has_protocol⟩ := cb
    cases has_protocol with
    | false => cases reason <;> cases hi
    | true =>
      obtain ⟨hsession, hnull⟩ := handle_pair hi
      by_cases hd : service.Deliverable env w ⟨wsi, reason, user, true⟩
      · left
        cases user with
        | none =>
          refine ⟨w, [.returned 0], fun m => ?_⟩
          have hd' : service.Deliverable ((server.over m).env env) w ⟨wsi, reason, none, true⟩ := hd
          rw [service.step_aside hd' (.inl rfl), if_pos rfl, hnull]
          rfl
        | some c =>
          obtain ⟨w', out, hrequest⟩ :=
            requestWritable_ok wsi c (service.beforeCallback ⟨wsi, reason, some c, true⟩ w)
          refine ⟨service.afterCallback ⟨wsi, reason, some c, true⟩ w', out ++ [.returned 0],
            fun m => ?_⟩
          have hd' : service.Deliverable ((server.over m).env env) w
            ⟨wsi, reason, some c, true⟩ := hd
          rw [service.step_session rfl rfl hd', hsession, ok_bind]
          dsimp only
          rw [hrequest, ok_bind]
          rfl
      · right
        intro m
        exact if_neg hd

/-! ## Two servers side by side -/

/-- The pairs are the same, or they have no descriptor in common. -/
def PairsApart (fd fd' : Int32 × Int32) : Prop := fd' = fd ∨ (fd'.1 ≠ fd.1 ∧ fd'.2 ≠ fd.2)

/-- The act reads no leftover in which the two servers differ. -/
def SameFor (server : JrpcServer H) (m : Leftover) (act : Act H) : Prop :=
  (m.fd = server.protocol.fd ∨ usesPair act = false) ∧
    (m.user_data = server.protocol.user_data ∨ getsData act = false)

/-- What an act does to both servers. As much can be seen of the one as of the other, and it is
the same when the act reads no leftover in which they differ. When their pairs are the same or
apart, it is the same only then. -/
structure SideBySide (server : JrpcServer H) (m : Leftover) (act : Act H)
    (after : Option (JrpcServer H)) (m' : Leftover) (out out' : List Seen) : Prop where
  length : (out'.filter counts).length = (out.filter counts).length
  same : SameFor server m act → out'.filter counts = out.filter counts
  differ : PairsApart server.protocol.fd m.fd → out'.filter counts = out.filter counts →
    SameFor server m act
  fd : m'.fd = m.fd
  user_data : setsData act = false → m'.user_data = m.user_data
  server_fd : ∀ s, after = some s → s.protocol.fd = server.protocol.fd
  server_data : ∀ s, after = some s →
    if setsData act then s.protocol.user_data = m'.user_data
    else s.protocol.user_data = server.protocol.user_data

/-- An act that sets neither the pair nor the user data. -/
theorem side_by_side_kept {server server' : JrpcServer H} {m m' : Leftover} {act : Act H}
    {out out' : List Seen} (hsets : setsData act = false)
    (hserver : server'.protocol.fd = server.protocol.fd ∧
      server'.protocol.user_data = server.protocol.user_data)
    (hm : m'.fd = m.fd ∧ m'.user_data = m.user_data)
    (hlength : (out'.filter counts).length = (out.filter counts).length)
    (hsame : SameFor server m act → out'.filter counts = out.filter counts)
    (hdiffer : PairsApart server.protocol.fd m.fd → out'.filter counts = out.filter counts →
      SameFor server m act) :
    SideBySide server m act (some server') m' out out' := by
  refine ⟨hlength, hsame, hdiffer, hm.1, fun _ => hm.2, ?_, ?_⟩
  · rintro s ⟨⟩
    exact hserver.1
  · rintro s ⟨⟩
    rw [hsets]
    exact hserver.2

/-- An act that reads no leftover, and sets neither the pair nor the user data. -/
theorem side_by_side_set {server server' : JrpcServer H} {m m' : Leftover} {act : Act H}
    {out out' : List Seen} (huses : usesPair act = false) (hgets : getsData act = false)
    (hsets : setsData act = false)
    (hserver : server'.protocol.fd = server.protocol.fd ∧
      server'.protocol.user_data = server.protocol.user_data)
    (hm : m'.fd = m.fd ∧ m'.user_data = m.user_data)
    (hout : out'.filter counts = out.filter counts) :
    SideBySide server m act (some server') m' out out' :=
  side_by_side_kept hsets hserver hm (congrArg List.length hout) (fun _ => hout)
    fun _ _ => ⟨.inr huses, .inr hgets⟩

theorem PairsApart.fst {fd fd' : Int32 × Int32} (h : PairsApart fd fd') :
    fd'.1 = fd.1 ↔ fd' = fd := by
  rcases h with rfl | ⟨h1, _⟩
  · simp
  · constructor
    · intro he
      exact absurd he h1
    · rintro rfl
      rfl

theorem PairsApart.snd {fd fd' : Int32 × Int32} (h : PairsApart fd fd') :
    fd'.2 = fd.2 ↔ fd' = fd := by
  rcases h with rfl | ⟨_, h2⟩
  · simp
  · constructor
    · intro he
      exact absurd he h2
    · rintro rfl
      rfl

theorem usesPair_input (i : service.Input H) :
    (pairEvent i = none ∧ usesPair (.input i) = false) ∨
      (pairEvent i = some .adopt ∧ usesPair (.input i) = false) ∨
      (pairEvent i = some .read ∧ usesPair (.input i) = true) := by
  cases i with
  | user prog => exact .inl ⟨rfl, rfl⟩
  | callback cb =>
    obtain ⟨wsi, reason, user, has_protocol⟩ := cb
    cases has_protocol <;> cases reason <;> simp [pairEvent, usesPair]

/-- A callback, or other user code. -/
theorem input_side_by_side {env : service.Env H} {server : JrpcServer H} {m : Leftover}
    {w w' : World H} {i : service.Input H} {out : List Event}
    (h : service.step (server.env env) w i = .ok (w', out)) :
    ∃ out', service.step ((server.over m).env env) w i = .ok (w', out') ∧
      SideBySide server m (.input i) (some server) m (out.map .callback) (out'.map .callback) := by
  have hself : service.step ((server.over server.leftover).env env) w i = .ok (w', out) := h
  obtain ⟨hnone, huses⟩ | ⟨hadopt, huses⟩ | ⟨hread, huses⟩ := usesPair_input i
  · refine ⟨out, ?_, side_by_side_set huses rfl rfl ⟨rfl, rfl⟩ ⟨rfl, rfl⟩ rfl⟩
    rw [input_over env server m w hnone, h]
  · obtain ⟨w1, rest, hok⟩ | herror := input_pair env server w hadopt
    · rw [hok] at hself
      cases hself
      exact ⟨_, hok m, side_by_side_set huses rfl rfl ⟨rfl, rfl⟩ ⟨rfl, rfl⟩ rfl⟩
    · rw [herror] at hself
      cases hself
  · obtain ⟨w1, rest, hok⟩ | herror := input_pair env server w hread
    · rw [hok] at hself
      cases hself
      refine ⟨_, hok m, side_by_side_kept rfl ⟨rfl, rfl⟩ ⟨rfl, rfl⟩ rfl ?_ ?_⟩
      · rintro ⟨hsame | hunused, _⟩
        · rw [hsame]
          rfl
        · rw [huses] at hunused
          cases hunused
      · intro hapart he
        rw [List.map_cons, List.map_cons, List.filter_cons_of_pos rfl,
          List.filter_cons_of_pos rfl] at he
        have hevent := Seen.callback.inj (List.cons.inj he).1
        exact ⟨.inl (hapart.fst.mp (Event.read.inj hevent)), .inr rfl⟩
    · rw [herror] at hself
      cases hself

/-- `lws_create_context` is given the same configuration, and all of it is written before. -/
theorem run_over (headers : Headers) (timeout_ms : Int32) (created : Option Nat)
    (server : JrpcServer H) (m : Leftover) :
    ∃ config, jrpc_server_run headers timeout_ms created (server.over m) =
      ((jrpc_server_run headers timeout_ms created server).1.over { m with config },
        (jrpc_server_run headers timeout_ms created server).2) := by
  obtain ⟨protocol, ws_protocols, mount, info, context, name, root, cert, key, port⟩ := server
  cases context with
  | some context => exact ⟨m.config, rfl⟩
  | none =>
    refine ⟨(jrpc_server_create_context headers
      ⟨protocol, ws_protocols, mount, info, none, name, root, cert, key, port⟩).config, ?_⟩
    cases created with
    | none => rfl
    | some context => rfl

/-- Both servers are gone, and both descriptors of each pair were closed. -/
theorem dispose_side_by_side (server : JrpcServer H) (m : Leftover) :
    SideBySide server m .dispose none m (jrpc_server_dispose server)
      (jrpc_server_dispose (server.over m)) := by
  let destroyed : List Seen := (server.context.map Seen.lws_context_destroy).toList.filter counts
  have hout : (jrpc_server_dispose server).filter counts =
      destroyed ++ [.close server.protocol.fd.1, .close server.protocol.fd.2] :=
    List.filter_append _ _
  have hout' : (jrpc_server_dispose (server.over m)).filter counts =
      destroyed ++ [.close m.fd.1, .close m.fd.2] := List.filter_append _ _
  refine ⟨?_, ?_, ?_, rfl, fun _ => rfl, ?_, ?_⟩
  · rw [hout', hout, List.length_append, List.length_append]
    rfl
  · rintro ⟨hsame | huses, _⟩
    · rw [hout', hout, hsame]
    · cases huses
  · intro hapart he
    rw [hout', hout] at he
    have hfst := Seen.close.inj (List.cons.inj (List.append_cancel_left he)).1
    exact ⟨.inl (hapart.fst.mp hfst), .inr rfl⟩
  · rintro s ⟨⟩
  · rintro s ⟨⟩

/-- What one server does in an act, a server with other leftovers does beside it. -/
theorem step_over {headers : Headers} {env : service.Env H} {server : JrpcServer H}
    {m : Leftover} {w : World H} {act : Act H} {s' : State H} {out : List Seen}
    (h : step headers env ⟨some server, w⟩ act = .ok (s', out)) :
    ∃ m' out', step headers env ⟨some (server.over m), w⟩ act =
        .ok (⟨s'.block.map (·.over m'), s'.world⟩, out') ∧
      SideBySide server m act s'.block m' out out' := by
  cases act with
  | set_userdata user_data =>
    cases h
    refine ⟨{ m with user_data }, [], rfl, rfl, fun _ => rfl, fun _ _ => ⟨.inr rfl, .inr rfl⟩, rfl,
      ?_, ?_, ?_⟩
    · intro hsets
      cases hsets
    · rintro s ⟨⟩
      rfl
    · rintro s ⟨⟩
      rfl
  | get_userdata =>
    cases h
    refine ⟨m, [.returned m.user_data], rfl,
      side_by_side_kept rfl ⟨rfl, rfl⟩ ⟨rfl, rfl⟩ rfl ?_ ?_⟩
    · rintro ⟨_, hsame | hgets⟩
      · rw [hsame]
        rfl
      · cases hgets
    · intro _ he
      exact ⟨.inr rfl, .inl (Seen.returned.inj (List.cons.inj he).1)⟩
  | run timeout_ms created =>
    have hprotocol := run_protocol headers timeout_ms created server
    obtain ⟨config, hrun⟩ := run_over headers timeout_ms created server m
    obtain ⟨rfl, rfl⟩ : s' = ⟨some (jrpc_server_run headers timeout_ms created server).1, w⟩ ∧
        out = (jrpc_server_run headers timeout_ms created server).2 := by
      cases h
      exact ⟨rfl, rfl⟩
    refine ⟨{ m with config }, (jrpc_server_run headers timeout_ms created server).2, ?_,
      side_by_side_set rfl rfl rfl ?_ ⟨rfl, rfl⟩ rfl⟩
    · have hstep : step headers env ⟨some (server.over m), w⟩ (.run timeout_ms created) =
          .ok (⟨some (jrpc_server_run headers timeout_ms created (server.over m)).1, w⟩,
            (jrpc_server_run headers timeout_ms created (server.over m)).2) := rfl
      rw [hstep, hrun]
      rfl
    · rw [hprotocol]
      exact ⟨rfl, rfl⟩
  | wakeup =>
    cases h
    refine ⟨m, [.write m.fd.2 [42]], rfl,
      side_by_side_kept rfl ⟨rfl, rfl⟩ ⟨rfl, rfl⟩ rfl ?_ ?_⟩
    · rintro ⟨hsame | huses, _⟩
      · rw [hsame]
      · cases huses
    · intro hapart he
      obtain ⟨hfd, _⟩ := Seen.write.inj (List.cons.inj he).1
      exact ⟨.inl (hapart.snd.mp hfd), .inr rfl⟩
  | dispose =>
    cases h
    exact ⟨m, _, rfl, dispose_side_by_side server m⟩
  | input i =>
    obtain ⟨⟨world, o⟩, hinput, h⟩ := bind_eq_ok.mp h
    cases h
    obtain ⟨o', hinput', hside⟩ := input_side_by_side (m := m) hinput
    refine ⟨m, _, ?_, hside⟩
    show (service.step ((server.over m).env env) w i >>= _) = _
    rw [hinput']
    rfl
  | _ =>
    cases h
    exact ⟨m, [], rfl, side_by_side_set rfl rfl rfl ⟨rfl, rfl⟩ ⟨rfl, rfl⟩ rfl⟩

/-- After the server is disposed, no act comes. -/
theorem run_disposed {headers : Headers} {env : service.Env H} {w : World H}
    {acts : List (Act H)} {s : State H} {out : List Seen}
    (h : run (step headers env) ⟨none, w⟩ acts = .ok (s, out)) : acts = [] ∧ out = [] := by
  cases acts with
  | nil =>
    cases h
    exact ⟨rfl, rfl⟩
  | cons act acts => cases h

/-- No act reads a leftover in which the two servers differ. -/
def SameForAll (server : JrpcServer H) (m : Leftover) (acts : List (Act H)) : Prop :=
  (m.fd = server.protocol.fd ∨ acts.any usesPair = false) ∧
    (m.user_data = server.protocol.user_data ∨ asksEarly acts = false)

/-- The first act, and the acts after it. -/
theorem sameForAll_cons {server server' : JrpcServer H} {m m' : Leftover} {act : Act H}
    {out out' : List Seen} (h : SideBySide server m act (some server') m' out out')
    (acts : List (Act H)) :
    SameForAll server m (act :: acts) ↔ SameFor server m act ∧ SameForAll server' m' acts := by
  have hfd := h.server_fd server' rfl
  have hdata := h.server_data server' rfl
  unfold SameForAll SameFor
  rw [h.fd, hfd, List.any_cons, Bool.or_eq_false_iff, asksEarly, Bool.or_eq_false_iff, or_and_left,
    or_and_left, and_and_and_comm]
  rcases hsets : setsData act with _ | _
  · rw [hsets, if_neg Bool.false_ne_true] at hdata
    rw [h.user_data hsets, hdata, Bool.not_false, Bool.true_and]
  · -- the user data was set just now, so what comes after reads it as it is
    rw [hsets, if_pos rfl] at hdata
    rw [hdata]
    simp

/-- Two servers that differ in leftovers run side by side. -/
theorem run_side_by_side {headers : Headers} {env : service.Env H} {server : JrpcServer H}
    {m : Leftover} {w : World H} {acts : List (Act H)} {s : State H} {out : List Seen}
    (h : run (step headers env) ⟨some server, w⟩ acts = .ok (s, out)) :
    ∃ s' out', run (step headers env) ⟨some (server.over m), w⟩ acts = .ok (s', out') ∧
      (SameForAll server m acts → out'.filter counts = out.filter counts) ∧
      (PairsApart server.protocol.fd m.fd → out'.filter counts = out.filter counts →
        SameForAll server m acts) ∧
      (out'.filter counts).length = (out.filter counts).length := by
  induction acts generalizing server m w out with
  | nil =>
    cases h
    exact ⟨_, _, rfl, fun _ => rfl, fun _ _ => ⟨.inr rfl, .inr rfl⟩, rfl⟩
  | cons act acts ih =>
    obtain ⟨⟨block, w1⟩, o, o', hstep, hrest, rfl⟩ := run_cons_ok.mp h
    obtain ⟨m', o2, hstep2, hside⟩ := step_over (m := m) hstep
    cases block with
    | none =>
      obtain ⟨rfl, rfl⟩ := run_disposed hrest
      have honly : SameForAll server m [act] ↔ SameFor server m act := by
        simp [SameForAll, SameFor, asksEarly]
      refine ⟨_, _, run_cons_ok.mpr ⟨_, _, [], hstep2, rfl, rfl⟩, ?_⟩
      rw [List.append_nil, List.append_nil, honly]
      exact ⟨hside.same, hside.differ, hside.length⟩
    | some server' =>
      obtain ⟨s', o3, hrest2, hsame, hdiffer, hlength⟩ := ih (m := m') hrest
      refine ⟨s', _, run_cons_ok.mpr ⟨_, _, _, hstep2, hrest2, rfl⟩, ?_⟩
      rw [List.filter_append, List.filter_append, sameForAll_cons hside]
      refine ⟨?_, ?_, ?_⟩
      · rintro ⟨h1, h2⟩
        rw [hside.same h1, hsame h2]
      · intro hapart he
        obtain ⟨h1, h2⟩ := List.append_inj he hside.length
        have hapart' : PairsApart server'.protocol.fd m'.fd := by
          rw [hside.server_fd server' rfl, hside.fd]
          exact hapart
        exact ⟨hside.differ hapart h1, hdiffer hapart' h2⟩
      · rw [List.length_append, List.length_append, hside.length, hlength]

/-! ## Any two contents of the block -/

/-- There is a pair, or no act uses it. No act asks for the user data before it is set. -/
def ReadsNoLeftover (fd : Option (Int32 × Int32)) (acts : List (Act H)) : Prop :=
  (fd.isSome ∨ acts.any usesPair = false) ∧ asksEarly acts = false

/-- The leftovers of a block that has nothing in common with another one. -/
def JrpcServer.other (server : JrpcServer H) : JrpcServer H :=
  server.over
    { server.leftover with
      fd := (if server.protocol.fd.1 = 0 then 1 else 0, if server.protocol.fd.2 = 0 then 1 else 0)
      user_data := if server.protocol.user_data = none then some 0 else none }

theorem other_apart (server : JrpcServer H) :
    (server.other.protocol.fd.1 ≠ server.protocol.fd.1 ∧
      server.other.protocol.fd.2 ≠ server.protocol.fd.2) ∧
    server.other.protocol.user_data ≠ server.protocol.user_data := by
  have hfd : ∀ x : Int32, (if x = 0 then 1 else 0) ≠ x := by
    intro x
    split
    · rename_i h
      rw [h]
      decide
    · rename_i h
      exact Ne.symm h
  refine ⟨⟨hfd _, hfd _⟩, ?_⟩
  show (if server.protocol.user_data = none then some 0 else none) ≠ server.protocol.user_data
  split
  · rename_i h
    rw [h]
    simp
  · rename_i h
    exact Ne.symm h

/-- Whatever malloc gives, the same can be seen of the server, just when no act reads from the
block what was not written into it. -/
theorem memory_is_not_seen_iff (headers : Headers) (env : service.Env H) (memory : JrpcServer H)
    (address : Nat) (fd : Option (Int32 × Int32)) (fails : Bool) (world : World H)
    {acts : List (Act H)} {s : State H} {out : List Seen}
    (hr : run (step headers env) (created (some memory) address fd fails world) acts =
      .ok (s, out)) :
    (∀ memory', ∃ s' out',
      run (step headers env) (created (some memory') address fd fails world) acts =
        .ok (s', out') ∧
      out'.filter counts = out.filter counts) ↔ ReadsNoLeftover fd acts := by
  constructor
  · intro hall
    obtain ⟨s', out', hr', hsame⟩ := hall memory.other
    obtain ⟨server, hcreate, hcreate', hfd, hdata⟩ :=
      create_over memory memory.other address fd fails world
    obtain ⟨hpair, huser⟩ := other_apart memory
    rw [hcreate] at hr
    rw [hcreate'] at hr'
    obtain ⟨s2, out2, hr2, _, hdiffer, _⟩ := run_side_by_side hr
    rw [hr2] at hr'
    cases hr'
    have hapart : PairsApart server.protocol.fd (fd.getD memory.other.protocol.fd) := by
      rw [hfd]
      cases fd with
      | none => exact .inr hpair
      | some pair => exact .inl rfl
    obtain ⟨h1, h2⟩ := hdiffer hapart hsame
    refine ⟨?_, ?_⟩
    · cases fd with
      | none =>
        rw [hfd] at h1
        exact .inr (h1.resolve_left fun he => hpair.1 (congrArg Prod.fst he))
      | some pair => exact .inl rfl
    · rw [hdata] at h2
      exact h2.resolve_left huser
  · rintro ⟨hpair, hasks⟩ memory'
    obtain ⟨server, hcreate, hcreate', hfd, _⟩ :=
      create_over memory memory' address fd fails world
    rw [hcreate] at hr
    obtain ⟨s', out', hr', hsame, _⟩ := run_side_by_side hr
    refine ⟨s', out', hcreate' ▸ hr', hsame ⟨?_, .inr hasks⟩⟩
    rw [hfd]
    cases fd with
    | none => exact .inr (hpair.resolve_left (by simp))
    | some pair => exact .inl rfl

/-- The user data is set, the server runs and is woken up, and then it is disposed. -/
def sampleActs : List (Act Unit) :=
  [.set_userdata (some 5), .get_userdata, .run 0 (some 1), .wakeup,
    .input (.callback ⟨9, .raw_rx_file, none, true⟩), .dispose]

theorem memory_is_not_seen_iff_sample :
    ∃ s out, run (step sampleHeaders (service.sample []))
        (created (some (sampleMemory (0, 0) none)) 1 (some (3, 4)) false service.sampleStart)
        sampleActs = .ok (s, out) ∧
      ∀ memory', ∃ s' out', run (step sampleHeaders (service.sample []))
          (created (some memory') 1 (some (3, 4)) false service.sampleStart) sampleActs =
            .ok (s', out') ∧
        out'.filter counts = out.filter counts :=
  ⟨_, _, rfl, (memory_is_not_seen_iff sampleHeaders (service.sample [])
    (sampleMemory (0, 0) none) 1 (some (3, 4)) false service.sampleStart rfl).mpr ⟨.inl rfl, rfl⟩⟩

/-- The user data is asked for before it is set. With no pair, what happens to lie in the block is
written to and closed. -/
theorem leftovers_are_seen :
    (∃ memory memory' s out s' out',
      run (step sampleHeaders (service.sample []))
        (created (some memory) 1 (some (3, 4)) false service.sampleStart)
        [.get_userdata, .dispose] = .ok (s, out) ∧
      run (step sampleHeaders (service.sample []))
        (created (some memory') 1 (some (3, 4)) false service.sampleStart)
        [.get_userdata, .dispose] = .ok (s', out') ∧
      out'.filter counts ≠ out.filter counts) ∧
    ∃ memory memory' s out s' out',
      run (step sampleHeaders (service.sample []))
        (created (some memory) 1 none false service.sampleStart)
        [.wakeup, .dispose] = .ok (s, out) ∧
      run (step sampleHeaders (service.sample []))
        (created (some memory') 1 none false service.sampleStart)
        [.wakeup, .dispose] = .ok (s', out') ∧
      out'.filter counts ≠ out.filter counts := by
  refine ⟨⟨sampleMemory (0, 0) none, sampleMemory (0, 0) (some 7), _, _, _, _, rfl, rfl, ?_⟩,
    ⟨sampleMemory (0, 0) none, sampleMemory (5, 6) none, _, _, _, _, rfl, rfl, ?_⟩⟩
  · intro he
    have hdata := Seen.returned.inj (List.cons.inj he).1
    cases hdata
  · intro he
    have hfd := (Seen.write.inj (List.cons.inj he).1).1
    exact absurd hfd (by decide)

end jrpc.server

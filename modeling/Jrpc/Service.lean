-- The server under libwebsockets: which callbacks may come, what libwebsockets does around
-- each of them, and runs of callbacks and user code in any order.
import Jrpc.Protocol

open heap runs
open outbox (Phase)
open jrpc.json jrpc.message jrpc.queue jrpc.connection jrpc.protocol

namespace jrpc.service

variable {H : Type}

/-- The server with its handlers, and the socket of each session: no two sessions share one. -/
structure Env (H : Type) where
  platform : Platform
  protocol : JrpcProtocol H
  wsi_of : Conn → Wsi
  wsi_injective : Function.Injective wsi_of

inductive Input (H : Type)
  | callback (cb : Callback)
  | user (prog : UserProg H)

/-- What libwebsockets promises: a session comes with its own socket. It is established once,
receives and is writable only while it is established, and is closed once. For these four
reasons its protocol is known. Every other reason may come at any time. -/
def Deliverable (env : Env H) (w : World H) (cb : Callback) : Prop :=
  match cb.user with
  | none => True
  | some c =>
    cb.wsi = env.wsi_of c ∧
      match cb.reason with
      | .established => w.phase c = .fresh ∧ cb.has_protocol = true
      | .closed => w.phase c = .established ∧ cb.has_protocol = true
      | .receive _ => w.phase c = .established ∧ cb.has_protocol = true
      | .server_writeable _ => w.phase c = .established ∧ cb.has_protocol = true
      | _ => True

instance (env : Env H) (w : World H) (cb : Callback) : Decidable (Deliverable env w cb) := by
  unfold Deliverable
  cases cb.user with
  | none => exact inferInstance
  | some c => cases cb.reason <;> exact inferInstance

/-- What libwebsockets does before it calls: a new session has no request for a writable
callback, and a writable callback takes the request back. -/
def beforeCallback (cb : Callback) (w : World H) : World H :=
  match cb.user, cb.reason with
  | some c, .established =>
    { w with
      mach := { w.mach with pending := Function.update w.mach.pending cb.wsi false }
      phase := Function.update w.phase c .established }
  | some _, .server_writeable _ =>
    { w with mach := { w.mach with pending := Function.update w.mach.pending cb.wsi false } }
  | _, _ => w

def afterCallback (cb : Callback) (w : World H) : World H :=
  match cb.user, cb.reason with
  | some c, .closed => { w with phase := Function.update w.phase c .closed }
  | _, _ => w

def step (env : Env H) (w : World H) : Input H → Except Fault (World H × List Event)
  | .user prog => exec env.platform prog w
  | .callback cb =>
    if Deliverable env w cb then do
      let (w, out, code) ←
        jrpc_protocol_callback env.platform env.protocol cb (beforeCallback cb w)
      .ok (afterCallback cb w, out ++ [.returned code])
    else .error .misuse

/-- No session has had a callback yet: its storage is filled with zeros. -/
def start (json : JsonStore) (oom : Nat → Bool) (user : H) : World H where
  mach :=
    { json
      oom
      heap := .empty
      conns := fun _ => .zero
      pending := fun _ => false }
  phase := fun _ => .fresh
  user

/-! ## The steps for a callback -/

theorem step_deliverable {env : Env H} {w : World H} {cb : Callback}
    (hd : Deliverable env w cb) :
    step env w (.callback cb) = (do
      let (w, out, code) ←
        jrpc_protocol_callback env.platform env.protocol cb (beforeCallback cb w)
      .ok (afterCallback cb w, out ++ [.returned code])) :=
  if_pos hd

/-- A callback that ends well was one that may come. -/
theorem deliverable_of_step {env : Env H} {w w' : World H} {cb : Callback} {out : List Event}
    (h : step env w (.callback cb) = .ok (w', out)) : Deliverable env w cb := by
  by_contra hn
  rw [show step env w (.callback cb) = .error .misuse from if_neg hn] at h
  cases h

/-- A callback that comes to a session. -/
theorem step_session {env : Env H} {w : World H} {cb : Callback} {c : Conn}
    (hu : cb.user = some c) (hp : cb.has_protocol = true) (hd : Deliverable env w cb) :
    step env w (.callback cb) = (do
      let (w, out) ← handle env.platform env.protocol cb.wsi cb.reason c (beforeCallback cb w)
      let (w, out') ← requestWritable cb.wsi c w
      .ok (afterCallback cb w, out ++ out' ++ [.returned 0])) := by
  rw [step_deliverable hd]
  unfold jrpc_protocol_callback
  rw [hp, hu, Bool.not_true, if_neg Bool.false_ne_true]
  dsimp only
  rcases handle env.platform env.protocol cb.wsi cb.reason c (beforeCallback cb w) with
    e | ⟨w1, out⟩
  · rfl
  · rw [ok_bind, ok_bind]
    dsimp only
    rcases requestWritable cb.wsi c w1 with e | ⟨w2, out'⟩
    · rfl
    · rfl

/-- A callback that comes to no session, or of a socket that has no protocol, changes
nothing. -/
theorem step_aside {env : Env H} {w : World H} {cb : Callback} (hd : Deliverable env w cb)
    (h : cb.user = none ∨ cb.has_protocol = false) :
    step env w (.callback cb) =
      .ok (w, (if cb.has_protocol then handleNull env.protocol cb.reason else []) ++
        [.returned 0]) := by
  rw [step_deliverable hd]
  obtain ⟨wsi, reason, user, has_protocol⟩ := cb
  cases user with
  | none => cases has_protocol <;> rfl
  | some c =>
    have hp : has_protocol = false := by simpa using h
    subst hp
    cases reason <;> first | rfl | simp [Deliverable] at hd

/-- What a callback that ends well can be: one that changes nothing, or the `switch` of the
callback and then its end. -/
theorem step_cases {env : Env H} {w w' : World H} {cb : Callback} {out : List Event}
    (h : step env w (.callback cb) = .ok (w', out)) :
    ((cb.user = none ∨ cb.has_protocol = false) ∧ w' = w ∧
        out = (if cb.has_protocol then handleNull env.protocol cb.reason else []) ++
          [.returned 0]) ∨
      ∃ c w1 w2 o o', cb.user = some c ∧ cb.has_protocol = true ∧
        handle env.platform env.protocol cb.wsi cb.reason c (beforeCallback cb w) =
          .ok (w1, o) ∧
        requestWritable cb.wsi c w1 = .ok (w2, o') ∧ w' = afterCallback cb w2 ∧
        out = o ++ o' ++ [.returned 0] := by
  have hok := deliverable_of_step h
  by_cases ha : cb.user = none ∨ cb.has_protocol = false
  · rw [step_aside hok ha] at h
    cases h
    exact .inl ⟨ha, rfl, rfl⟩
  · rw [not_or, Bool.not_eq_false] at ha
    obtain ⟨c, hu⟩ := Option.ne_none_iff_exists'.mp ha.1
    rw [step_session hu ha.2 hok] at h
    obtain ⟨⟨w1, o⟩, he, h⟩ := bind_eq_ok.mp h
    obtain ⟨⟨w2, o'⟩, ht, h⟩ := bind_eq_ok.mp h
    cases h
    exact .inr ⟨c, w1, w2, o, o', hu, ha.2, he, ht, rfl, rfl⟩

end jrpc.service

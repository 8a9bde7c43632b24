-- The whole chat: the server, the pages of all users, and the network between them. A message of a
-- page or of the server is on its way for some time. What was sent on one web socket comes in
-- order, until the web socket breaks.
import Jrpc.Reconnects

open heap runs unordered room
open jrpc.json jrpc.message jrpc.queue jrpc.connection jrpc.protocol jrpc.service jrpc.chatserver
open jrpc.chatpage

namespace jrpc.network

/-! ## The parts -/

/-- All pages connect to one server, and each web socket of a page has its own connection there.
There may be other connections, which come from elsewhere. -/
structure Setting where
  hashing : Hashing Conn Chatter
  env : Env Statics
  browser : Browser
  conn_of : Nat → Nat → Conn
  page_of : Conn → Option (Nat × Nat)
  page_of_conn : ∀ page socket, page_of (conn_of page socket) = some (page, socket)

/-- The server, the pages, and for each web socket of each page what is on its way in both
directions, and whether it broke on its way to the page. -/
structure Net where
  server : World Statics
  pages : Nat → Page
  up : Nat → Nat → List Bytes
  down : Nat → Nat → List Bytes
  broken : Nat → Nat → Bool

/-- libwebsockets hands over a long message in parts, and for each of them it calls back. -/
inductive Move
  | user (page : Nat) (e : chatpage.Event)
  | accepts (page socket : Nat)
  | opens (page socket : Nat)
  | arrives (page socket : Nat)
  | arrives_in_part (page socket : Nat) (count : Nat)
  | writes (page socket : Nat) (result : Int32)
  | shows (page socket : Nat)
  | leaves (page socket : Nat)
  | fails (page socket : Nat)
  | closes (page socket : Nat)
  | elsewhere (cb : Callback)

inductive Happened
  | callback (cb : Callback) (out : List connection.Event)
  | event (page : Nat) (e : chatpage.Event) (out : List Effect)

/-! ## What happened at each place -/

def callbackIn : Happened → Option Callback
  | .callback cb _ => some cb
  | .event _ _ _ => none

def callbacksIn (trace : List Happened) : List Callback := trace.filterMap callbackIn

def outputOf : Happened → List connection.Event
  | .callback _ out => out
  | .event _ _ _ => []

def serverOut (trace : List Happened) : List connection.Event := trace.flatMap outputOf

def eventAt (page : Nat) : Happened → Option chatpage.Event
  | .callback _ _ => none
  | .event p e _ => if p = page then some e else none

def eventsAt (page : Nat) (trace : List Happened) : List chatpage.Event :=
  trace.filterMap (eventAt page)

def effectsOf (page : Nat) : Happened → List Effect
  | .callback _ _ => []
  | .event p _ out => if p = page then out else []

def effectsAt (page : Nat) (trace : List Happened) : List Effect := trace.flatMap (effectsOf page)

/-- What the server wrote for a web socket of a page. -/
def written (n : Setting) (page socket : Nat) (trace : List Happened) : List Bytes :=
  (writtenOn (n.env.wsi_of (n.conn_of page socket)) (serverOut trace)).map (·.2)

/-! ## Moves -/

/-- The callback for a web socket of a page. -/
def Setting.session (n : Setting) (page socket : Nat) (reason : Reason) : Callback :=
  ⟨n.env.wsi_of (n.conn_of page socket), reason, some (n.conn_of page socket), true⟩

def callback (n : Setting) (s : Net) (cb : Callback) : Except Fault (Net × List Happened) := do
  let (server, out) ← service.step (chatServer n.hashing n.env) s.server (.callback cb)
  .ok ({ s with server }, [.callback cb out])

/-- What the page sends is on its way then. -/
def event (n : Setting) (s : Net) (page : Nat) (e : chatpage.Event) : Net × List Happened :=
  let ran := dispatch n.browser e (s.pages page)
  ({ s with
      pages := Function.update s.pages page ran.page
      up := fun p t => s.up p t ++ if p = page then postsOn t ran.out else [] },
    [.event page e ran.out])

def setAt (f : Nat → Nat → List Bytes) (page socket : Nat) (data : List Bytes) :
    Nat → Nat → List Bytes :=
  fun p t => if p = page ∧ t = socket then data else f p t

/-- What `lws_write` was given is on its way, unless it fails. Nothing comes after that. -/
def Net.carries (s : Net) (page socket : Nat) (result : Int32) (data : List Bytes) : Net :=
  if data = [] then s
  else if result < 0 ∨ s.broken page socket = true then
    { s with broken := fun p t => decide (p = page ∧ t = socket) || s.broken p t }
  else { s with down := setAt s.down page socket (s.down page socket ++ data) }

def isUser : chatpage.Event → Bool
  | .opened _ => false
  | .message _ _ => false
  | .failed _ => false
  | .closed _ => false
  | _ => true

/-- A callback of no page: it is for a connection from elsewhere, or has one of the reasons that the
server does not look at. -/
def comesFromElsewhere (n : Setting) (cb : Callback) : Bool :=
  match cb.reason with
  | .established => (cb.user.bind n.page_of).isNone
  | .closed => (cb.user.bind n.page_of).isNone
  | .receive _ => (cb.user.bind n.page_of).isNone
  | .server_writeable _ => (cb.user.bind n.page_of).isNone
  | _ => true

def step (n : Setting) (s : Net) : Move → Except Fault (Net × List Happened)
  | .user page e => if isUser e then .ok (event n s page e) else .error .misuse
  | .accepts page socket =>
    if socket < (s.pages page).sockets.length then callback n s (n.session page socket .established)
    else .error .misuse
  | .opens page socket =>
    if s.server.phase (n.conn_of page socket) ≠ .fresh then .ok (event n s page (.opened socket))
    else .error .misuse
  | .arrives page socket =>
    match s.up page socket with
    | [] => .error .misuse
    | data :: rest =>
      callback n { s with up := setAt s.up page socket rest }
        (n.session page socket (.receive data))
  | .arrives_in_part page socket count =>
    match s.up page socket with
    | [] => .error .misuse
    | data :: rest =>
      callback n { s with up := setAt s.up page socket (data.drop count :: rest) }
        (n.session page socket (.receive (data.take count)))
  | .writes page socket result => do
    let (s, happened) ← callback n s (n.session page socket (.server_writeable result))
    .ok (s.carries page socket result (written n page socket happened), happened)
  | .shows page socket =>
    match s.down page socket with
    | [] => .error .misuse
    | data :: rest =>
      if stateOf (s.pages page) socket = .opened then
        .ok (event n { s with down := setAt s.down page socket rest } page (.message socket data))
      else .error .misuse
  | .leaves page socket => callback n s (n.session page socket .closed)
  | .fails page socket => .ok (event n s page (.failed socket))
  | .closes page socket => .ok (event n s page (.closed socket))
  | .elsewhere cb => if comesFromElsewhere n cb then callback n s cb else .error .misuse

/-- All pages were just loaded, and nobody is connected. -/
def start (oom fails : Nat → Bool) : Net where
  server := chatStart oom fails
  pages := fun _ => startup
  up := fun _ _ => []
  down := fun _ _ => []
  broken := fun _ _ => false

theorem callbacksIn_append (trace more : List Happened) :
    callbacksIn (trace ++ more) = callbacksIn trace ++ callbacksIn more := List.filterMap_append

theorem serverOut_append (trace more : List Happened) :
    serverOut (trace ++ more) = serverOut trace ++ serverOut more := List.flatMap_append

theorem eventsAt_append (page : Nat) (trace more : List Happened) :
    eventsAt page (trace ++ more) = eventsAt page trace ++ eventsAt page more :=
  List.filterMap_append

theorem effectsAt_append (page : Nat) (trace more : List Happened) :
    effectsAt page (trace ++ more) = effectsAt page trace ++ effectsAt page more :=
  List.flatMap_append

theorem written_append (n : Setting) (page socket : Nat) (trace more : List Happened) :
    written n page socket (trace ++ more) =
      written n page socket trace ++ written n page socket more := by
  unfold written
  rw [serverOut_append, writtenOn_append, List.map_append]

theorem eventsAt_event (page p : Nat) (e : chatpage.Event) (out : List Effect) :
    eventsAt page [.event p e out] = if p = page then [e] else [] := by
  unfold eventsAt eventAt
  by_cases hp : p = page <;> simp [hp]

theorem effectsAt_event (page p : Nat) (e : chatpage.Event) (out : List Effect) :
    effectsAt page [.event p e out] = if p = page then out else [] := by
  unfold effectsAt effectsOf
  by_cases hp : p = page <;> simp [hp]

theorem written_callback (n : Setting) (page socket : Nat) (cb : Callback)
    (out : List connection.Event) : written n page socket [.callback cb out] =
      (writtenOn (n.env.wsi_of (n.conn_of page socket)) out).map (·.2) := by
  unfold written serverOut
  rw [List.flatMap_singleton]
  rfl

/-- Two web sockets have two connections. -/
theorem Setting.conn_inj (n : Setting) {page socket page' socket' : Nat}
    (h : n.conn_of page socket = n.conn_of page' socket') : page = page' ∧ socket = socket' := by
  have hsame := n.page_of_conn page socket
  rw [h, n.page_of_conn, Option.some.injEq, Prod.mk.injEq] at hsame
  exact ⟨hsame.1.symm, hsame.2.symm⟩

/-- A connection from elsewhere is the one of no page. -/
theorem Setting.not_of_page (n : Setting) {cb : Callback} (h : comesFromElsewhere n cb = true)
    (hr : cb.reason = .established ∨ (∃ data, cb.reason = .receive data) ∨
      ∃ result, cb.reason = .server_writeable result) (page socket : Nat) :
    cb.user ≠ some (n.conn_of page socket) := by
  intro hu
  have hnone : (cb.user.bind n.page_of).isNone = true := by
    unfold comesFromElsewhere at h
    rcases hr with hr | ⟨data, hr⟩ | ⟨result, hr⟩
    · rwa [hr] at h
    · rwa [hr] at h
    · rwa [hr] at h
  rw [hu, Option.bind_some, n.page_of_conn] at hnone
  cases hnone

theorem callback_ok {n : Setting} {s s' : Net} {cb : Callback} {happened : List Happened}
    (h : callback n s cb = .ok (s', happened)) :
    ∃ server out, service.step (chatServer n.hashing n.env) s.server (.callback cb) =
      .ok (server, out) ∧ s' = { s with server } ∧ happened = [.callback cb out] := by
  obtain ⟨⟨server, out⟩, hs, h⟩ := bind_eq_ok.mp h
  cases h
  exact ⟨server, out, hs, rfl, rfl⟩

theorem callback_of_step {n : Setting} {s : Net} {cb : Callback} {server : World Statics}
    {out : List connection.Event} (hs : service.step (chatServer n.hashing n.env) s.server
      (.callback cb) = .ok (server, out)) :
    callback n s cb = .ok ({ s with server }, [.callback cb out]) := by
  rw [callback, hs]
  rfl

/-! ## One step -/

/-- All that a move can be, with what it needs. A callback that is not for a message of a page
brings nothing from a page, establishes no web socket but one that was made, and writes for none. -/
inductive Next (n : Setting) (s : Net) : Move → Net → List Happened → Prop
  | event {m : Move} {page : Nat} {e : chatpage.Event} {s' : Net} {happened : List Happened}
      (he : ∀ socket data, e ≠ .message socket data) (h : event n s page e = (s', happened)) :
      Next n s m s' happened
  | shows {page socket : Nat} {data : Bytes} {rest : List Bytes}
      (hdown : s.down page socket = data :: rest) (hopen : stateOf (s.pages page) socket = .opened)
      {s' : Net} {happened : List Happened}
      (h : event n { s with down := setAt s.down page socket rest } page (.message socket data) =
        (s', happened)) : Next n s (.shows page socket) s' happened
  | arrives {page socket : Nat} {data : Bytes} {rest : List Bytes}
      (hup : s.up page socket = data :: rest) {s' : Net} {happened : List Happened}
      (h : callback n { s with up := setAt s.up page socket rest }
        (n.session page socket (.receive data)) = .ok (s', happened)) :
      Next n s (.arrives page socket) s' happened
  | arrives_in_part {page socket count : Nat} {up : Nat → Nat → List Bytes} {data : Bytes}
      {s' : Net} {happened : List Happened}
      (h : callback n { s with up } (n.session page socket (.receive data)) = .ok (s', happened)) :
      Next n s (.arrives_in_part page socket count) s' happened
  | writes {page socket : Nat} {result : Int32} {server : World Statics}
      {out : List connection.Event}
      (hs : service.step (chatServer n.hashing n.env) s.server
        (.callback (n.session page socket (.server_writeable result))) = .ok (server, out)) :
      Next n s (.writes page socket result)
        ({ s with server }.carries page socket result (written n page socket
          [.callback (n.session page socket (.server_writeable result)) out]))
        [.callback (n.session page socket (.server_writeable result)) out]
  | callback {m : Move} {cb : Callback} {s' : Net} {happened : List Happened}
      (h : callback n s cb = .ok (s', happened))
      (hreceive : ∀ data, cb.reason = .receive data →
        m = .elsewhere cb ∧ ∀ page socket, cb.user ≠ some (n.conn_of page socket))
      (hmade : ∀ page socket, cb.reason = .established → cb.user = some (n.conn_of page socket) →
        socket < (s.pages page).sockets.length)
      (hwrites : ∀ result, cb.reason = .server_writeable result → ∀ page socket,
        cb.user ≠ some (n.conn_of page socket)) : Next n s m s' happened

theorem step_next {n : Setting} {s s' : Net} {m : Move} {happened : List Happened}
    (h : step n s m = .ok (s', happened)) : Next n s m s' happened := by
  cases m with
  | user page e =>
    rw [step] at h
    split at h
    · rename_i huser
      refine .event ?_ (Except.ok.inj h)
      rintro socket data rfl
      cases huser
    · cases h
  | accepts page socket =>
    rw [step] at h
    split at h
    · rename_i hmade
      refine .callback h (fun _ hr => (by cases hr)) (fun p t _ hu => ?_) fun _ hr => (by cases hr)
      obtain ⟨rfl, rfl⟩ := n.conn_inj (Option.some.inj hu)
      exact hmade
    · cases h
  | opens page socket =>
    rw [step] at h
    split at h
    · exact .event (fun _ _ he => (by cases he)) (Except.ok.inj h)
    · cases h
  | arrives page socket =>
    rw [step] at h
    split at h
    · cases h
    · rename_i hup
      exact .arrives hup h
  | arrives_in_part page socket count =>
    rw [step] at h
    split at h
    · cases h
    · exact .arrives_in_part h
  | writes page socket result =>
    obtain ⟨⟨s1, happened1⟩, hc, h⟩ := bind_eq_ok.mp h
    cases h
    obtain ⟨server, out, hs, rfl, rfl⟩ := callback_ok hc
    exact .writes hs
  | shows page socket =>
    rw [step] at h
    split at h
    · cases h
    · rename_i hdown
      split at h
      · exact .shows hdown ‹_› (Except.ok.inj h)
      · cases h
  | leaves page socket =>
    exact .callback h (fun _ hr => (by cases hr)) (fun _ _ hr => (by cases hr))
      fun _ hr => (by cases hr)
  | fails page socket => exact .event (fun _ _ he => (by cases he)) (Except.ok.inj h)
  | closes page socket => exact .event (fun _ _ he => (by cases he)) (Except.ok.inj h)
  | elsewhere cb =>
    rw [step] at h
    split at h
    · rename_i haway
      exact .callback h (fun data hr => ⟨rfl, n.not_of_page haway (.inr (.inl ⟨data, hr⟩))⟩)
        (fun page socket hr hu => absurd hu (n.not_of_page haway (.inl hr) page socket))
        fun result hr => n.not_of_page haway (.inr (.inr ⟨result, hr⟩))
    · cases h

/-- Either way, it is a callback of the server or an event of a page. -/
inductive Does (n : Setting) (s s' : Net) : List Happened → Prop
  | callback {cb : Callback} {out : List connection.Event}
      (hs : service.step (chatServer n.hashing n.env) s.server (.callback cb) =
        .ok (s'.server, out))
      (hpages : s'.pages = s.pages)
      (hmade : ∀ page socket, cb.reason = .established → cb.user = some (n.conn_of page socket) →
        socket < (s.pages page).sockets.length) : Does n s s' [.callback cb out]
  | event {page : Nat} {e : chatpage.Event} (hserver : s'.server = s.server)
      (hpages : s'.pages =
        Function.update s.pages page (dispatch n.browser e (s.pages page)).page)
      (hopen : ∀ socket data, e = .message socket data →
        stateOf (s.pages page) socket = .opened) :
      Does n s s' [.event page e (dispatch n.browser e (s.pages page)).out]

theorem carries_server (s : Net) (page socket : Nat) (result : Int32) (data : List Bytes) :
    (s.carries page socket result data).server = s.server ∧
      (s.carries page socket result data).pages = s.pages := by
  unfold Net.carries
  split
  · exact ⟨rfl, rfl⟩
  · split <;> exact ⟨rfl, rfl⟩

theorem Next.does {n : Setting} {s s' : Net} {m : Move} {happened : List Happened}
    (h : Next n s m s' happened) : Does n s s' happened := by
  cases h with
  | event he h =>
    cases h
    exact .event rfl rfl fun socket data hsame => absurd hsame (he socket data)
  | shows hdown hopen h =>
    cases h
    refine .event rfl rfl ?_
    rintro _ _ ⟨⟩
    exact hopen
  | arrives hup h =>
    obtain ⟨server, out, hs, rfl, rfl⟩ := callback_ok h
    exact .callback hs rfl fun _ _ hr => (by cases hr)
  | arrives_in_part h =>
    obtain ⟨server, out, hs, rfl, rfl⟩ := callback_ok h
    exact .callback hs rfl fun _ _ hr => (by cases hr)
  | writes hs =>
    obtain ⟨hserver, hpages⟩ := carries_server { s with server := _ } _ _ _ _
    refine .callback ?_ hpages fun _ _ hr => (by cases hr)
    rw [hserver]
    exact hs
  | callback h hreceive hmade hwrites =>
    obtain ⟨server, out, hs, rfl, rfl⟩ := callback_ok h
    exact .callback hs rfl hmade

/-! ## What comes on a web socket -/

/-- Only a writable callback of a connection writes anything for it. -/
theorem silent_unless_writeable {H : Type} {env : Env H} {w w' : World H}
    (h : ∃ b, Refines env w b) {cb : Callback} {out : List connection.Event}
    (hs : service.step env w (.callback cb) = .ok (w', out)) {c : Conn}
    (hnot : ∀ result, cb.reason = .server_writeable result → cb.user ≠ some c) :
    writtenOn (env.wsi_of c) out = [] := by
  obtain ⟨b, hb⟩ := h
  obtain ⟨xs, b', hx⟩ := run_explains hb (run_one_ok.mpr hs)
  have hle := outbox.delivered_le_drains c xs
  have hnone : writeables c [(.callback cb : Input H)] = 0 := by
    unfold writeables
    rw [List.countP_eq_zero]
    intro i hi hw
    rw [List.mem_singleton.mp hi] at hw
    unfold writeableFor at hw
    split at hw
    · rename_i hcb
      cases hcb
      exact hnot _ rfl (congrArg some (of_decide_eq_true hw))
    · cases hw
  rw [hx.drains, hx.delivered, hnone] at hle
  exact List.eq_nil_of_length_eq_zero (Nat.le_zero.mp hle)

/-- What a step does to what is on its way to a web socket: what the page receives is taken from
the front, and what is written is put at the end, all of it while nothing broke. -/
def Flows (n : Setting) (s s' : Net) (happened : List Happened) (page socket : Nat) : Prop :=
  ∃ got, got <+: written n page socket happened ∧
    receivedOn socket (eventsAt page happened) ++ s'.down page socket =
      s.down page socket ++ got ∧
    (s.broken page socket = true → got = [] ∧ s'.broken page socket = true) ∧
    (s'.broken page socket = false → got = written n page socket happened)

/-- Nothing is written and nothing is received. -/
theorem Flows.still {n : Setting} {s s' : Net} {happened : List Happened} {page socket : Nat}
    (hdown : s'.down page socket = s.down page socket)
    (hbroken : s'.broken page socket = s.broken page socket)
    (hreceived : receivedOn socket (eventsAt page happened) = [])
    (hwritten : written n page socket happened = []) : Flows n s s' happened page socket := by
  refine ⟨[], List.nil_prefix, ?_, fun h => ⟨rfl, hbroken.trans h⟩, fun _ => hwritten.symm⟩
  rw [hreceived, hdown, List.append_nil]
  rfl

/-- An event that is no message for this web socket. -/
theorem flows_event {n : Setting} {s s1 : Net} {p : Nat} {e : chatpage.Event} {page socket : Nat}
    (he : ∀ data, p = page → e ≠ .message socket data)
    (hdown : s1.down page socket = s.down page socket) (hbroken : s1.broken = s.broken) :
    Flows n s (event n s1 p e).1 (event n s1 p e).2 page socket := by
  refine .still hdown (congrFun (congrFun hbroken page) socket) ?_ rfl
  show receivedOn socket (eventsAt page [.event p e _]) = []
  rw [eventsAt_event]
  split
  · rename_i hp
    cases e with
    | message t data =>
      rw [receivedOn_message, if_neg]
      rintro rfl
      exact he data hp rfl
    | _ => rfl
  · rfl

/-- A callback that cannot write for this web socket. -/
theorem flows_callback {n : Setting} {s s1 s' : Net} {cb : Callback} {happened : List Happened}
    {page socket : Nat} (hb : ∃ b, Refines (chatServer n.hashing n.env) s.server b)
    (h : callback n s1 cb = .ok (s', happened)) (hserver : s1.server = s.server)
    (hdown : s1.down = s.down) (hbroken : s1.broken = s.broken)
    (hnot : ∀ result, cb.reason = .server_writeable result →
      cb.user ≠ some (n.conn_of page socket)) : Flows n s s' happened page socket := by
  obtain ⟨server, out, hs, rfl, rfl⟩ := callback_ok h
  rw [hserver] at hs
  refine .still (congrFun (congrFun hdown page) socket) (congrFun (congrFun hbroken page) socket)
    rfl ?_
  have hsilent : writtenOn (n.env.wsi_of (n.conn_of page socket)) out = [] :=
    silent_unless_writeable hb hs hnot
  rw [written_callback, hsilent]
  rfl

/-- What a writable callback writes is on its way, until the web socket breaks. -/
theorem flows_writes {n : Setting} {s : Net} {server : World Statics} {page socket : Nat}
    {result : Int32} {out : List connection.Event}
    (hs : service.step (chatServer n.hashing n.env) s.server
      (.callback (n.session page socket (.server_writeable result))) = .ok (server, out))
    (hb : ∃ b, Refines (chatServer n.hashing n.env) s.server b) (p t : Nat) :
    Flows n s
      ({ s with server }.carries page socket result (written n page socket
        [.callback (n.session page socket (.server_writeable result)) out]))
      [.callback (n.session page socket (.server_writeable result)) out] p t := by
  generalize hdata : written n page socket
    [.callback (n.session page socket (.server_writeable result)) out] = data
  unfold Net.carries
  by_cases hsame : p = page ∧ t = socket
  · obtain ⟨rfl, rfl⟩ := hsame
    split
    · rename_i hnone
      exact .still rfl rfl rfl (hdata.trans hnone)
    · split
      · -- it breaks now, or was broken before
        refine ⟨[], List.nil_prefix, (List.append_nil _).symm, fun _ => ⟨rfl, by simp⟩, fun h => ?_⟩
        simp at h
      · rename_i hfine
        rw [not_or, Bool.not_eq_true] at hfine
        refine ⟨data, hdata ▸ List.prefix_rfl, ?_, fun h => ?_, fun _ => hdata.symm⟩
        · show setAt s.down p t (s.down p t ++ data) p t = s.down p t ++ data
          exact if_pos ⟨rfl, rfl⟩
        · rw [hfine.2] at h
          cases h
  · have hnot : n.conn_of page socket ≠ n.conn_of p t := by
      intro he
      obtain ⟨rfl, rfl⟩ := n.conn_inj he
      exact hsame ⟨rfl, rfl⟩
    have hsilent : writtenOn (n.env.wsi_of (n.conn_of p t)) out = [] :=
      silent_unless_writeable hb hs fun _ _ hu => hnot (Option.some.inj hu)
    have hwritten : written n p t
        [.callback (n.session page socket (.server_writeable result)) out] = [] := by
      rw [written_callback, hsilent]
      rfl
    split
    · exact .still rfl rfl rfl hwritten
    · split
      · exact .still rfl (by simp [hsame]) rfl hwritten
      · exact .still (if_neg hsame) rfl rfl hwritten

theorem Next.flows {n : Setting} {s s' : Net} {m : Move} {happened : List Happened}
    (h : Next n s m s' happened) (hb : ∃ b, Refines (chatServer n.hashing n.env) s.server b)
    (page socket : Nat) : Flows n s s' happened page socket := by
  cases h with
  | event he h =>
    cases h
    exact flows_event (fun data _ => he socket data) rfl rfl
  | @shows p t data rest hdown hopen _ _ h =>
    cases h
    by_cases hsame : page = p ∧ socket = t
    · obtain ⟨rfl, rfl⟩ := hsame
      refine ⟨[], List.nil_prefix, ?_, fun hbroken => ⟨rfl, hbroken⟩, fun _ => rfl⟩
      show receivedOn socket (eventsAt page [.event page (.message socket data) _]) ++
        setAt s.down page socket rest page socket = s.down page socket ++ []
      rw [eventsAt_event, if_pos rfl, receivedOn_message, if_pos rfl, hdown, List.append_nil]
      exact congrArg _ (if_pos ⟨rfl, rfl⟩)
    · refine flows_event (fun d hp he => ?_) (if_neg hsame) rfl
      cases he
      exact hsame ⟨hp.symm, rfl⟩
  | arrives hup h => exact flows_callback hb h rfl rfl rfl fun _ hr => (by cases hr)
  | arrives_in_part h => exact flows_callback hb h rfl rfl rfl fun _ hr => (by cases hr)
  | writes hs => exact flows_writes hs hb page socket
  | callback h hreceive hmade hwrites =>
    exact flows_callback hb h rfl rfl rfl fun result hr => hwrites result hr page socket

end jrpc.network

-- The server does what a family of outboxes does, one outbox for each connection: to send
-- is to post, a writable callback delivers one message, and the flag of the outbox is the
-- request that libwebsockets keeps. Here are the relation between the two and what user code
-- does to it.
import Jrpc.UserCode
import Jrpc.Service

open heap runs outbox
open jrpc.json jrpc.message jrpc.queue jrpc.connection jrpc.protocol

namespace jrpc.service

variable {H : Type}

/-! ## What can be seen of one connection -/

def sentBy (c : Conn) : Event → Option (Addr × Bytes)
  | .send d _ message => if d = c then message else none
  | _ => none

def writtenBy (wsi : Wsi) : Event → Option (Addr × Bytes)
  | .write v message data _ => if v = wsi then some (message, data) else none
  | _ => none

/-- The messages created for a connection, oldest first. -/
def sentTo (c : Conn) (out : List Event) : List (Addr × Bytes) := out.filterMap (sentBy c)

/-- The messages handed to `lws_write` on a socket, oldest first. -/
def writtenOn (wsi : Wsi) (out : List Event) : List (Addr × Bytes) :=
  out.filterMap (writtenBy wsi)

/-- A writable callback for the connection. -/
def writeableFor (c : Conn) : Input H → Bool
  | .callback ⟨_, .server_writeable _, some d, _⟩ => d = c
  | _ => false

def writeables (c : Conn) (is : List (Input H)) : Nat := is.countP (writeableFor c)

/-- Each message has the text that its object had when it was sent. -/
def Compact (lib : JsonLib) (out : List Event) : Prop :=
  ∀ c object message bytes, .send c object (some (message, bytes)) ∈ out →
    bytes = (object.bind lib.dumps).getD []

@[simp] theorem sentTo_append (c : Conn) (o o' : List Event) :
    sentTo c (o ++ o') = sentTo c o ++ sentTo c o' := by
  simp [sentTo]

@[simp] theorem writtenOn_append (wsi : Wsi) (o o' : List Event) :
    writtenOn wsi (o ++ o') = writtenOn wsi o ++ writtenOn wsi o' := by
  simp [writtenOn]

@[simp] theorem writeables_append (c : Conn) (is is' : List (Input H)) :
    writeables c (is ++ is') = writeables c is + writeables c is' := by
  simp [writeables]

theorem Compact.append {lib : JsonLib} {o o' : List Event} (h : Compact lib o)
    (h' : Compact lib o') : Compact lib (o ++ o') := by
  intro c object message bytes he
  rcases List.mem_append.mp he with he | he
  · exact h _ _ _ _ he
  · exact h' _ _ _ _ he

/-- An event of no message. -/
def plain : Event → Bool
  | .send _ _ _ => false
  | .write _ _ _ _ => false
  | .dispose _ => false
  | _ => true

theorem sentTo_plain {out : List Event} (h : ∀ e ∈ out, plain e = true) (c : Conn) :
    sentTo c out = [] := by
  apply List.filterMap_eq_nil_iff.mpr
  intro e he
  have hp := h e he
  cases e <;> first | rfl | cases hp

theorem writtenOn_plain {out : List Event} (h : ∀ e ∈ out, plain e = true) (wsi : Wsi) :
    writtenOn wsi out = [] := by
  apply List.filterMap_eq_nil_iff.mpr
  intro e he
  have hp := h e he
  cases e <;> first | rfl | cases hp

theorem compact_plain {out : List Event} (h : ∀ e ∈ out, plain e = true) (lib : JsonLib) :
    Compact lib out := by
  intro c object message bytes he
  cases h _ he

theorem balanced_plain {out : List Event} (h : ∀ e ∈ out, plain e = true)
    (heap : MessageHeap) : Balanced heap heap out := by
  apply Balanced.refl
  · apply List.filterMap_eq_nil_iff.mpr
    intro e he
    have hp := h e he
    cases e <;> first | rfl | cases hp
  · apply List.filterMap_eq_nil_iff.mpr
    intro e he
    have hp := h e he
    cases e <;> first | rfl | cases hp

/-! ## The relation -/

/-- The state of the server and the state of the outboxes. Nothing is said of the socket and
the flag of a session that is not established. -/
structure Refines (env : Env H) (w : World H) (b : Outbox Conn (Addr × Bytes)) : Prop where
  coupled : Coupled w.mach b.queue
  phase : w.phase = b.phase
  socket : ∀ c, w.phase c = .established → (w.mach.conns c).wsi = some (env.wsi_of c)
  pending : ∀ c, w.phase c = .established → w.mach.pending (env.wsi_of c) = b.armed c
  sound : ∀ c, Sound b c

/-- What the server did from a state with this heap on, as acts of the outboxes. A part of a
step has no inputs. -/
structure Explains (env : Env H) (is : List (Input H)) (heap : MessageHeap)
    (b : Outbox Conn (Addr × Bytes)) (w' : World H) (out : List Event)
    (acts : List (Act Conn (Addr × Bytes))) (b' : Outbox Conn (Addr × Bytes)) : Prop where
  replay : Replay Next b acts b'
  refines : Refines env w' b'
  posted : ∀ c, posted c acts = sentTo c out
  delivered : ∀ c, delivered c acts = writtenOn (env.wsi_of c) out
  drains : ∀ c, drains c acts = writeables c is
  compact : Compact env.platform.lib out
  balanced : Balanced heap w'.mach.heap out

theorem Explains.append {env : Env H} {is is' : List (Input H)} {heap : MessageHeap}
    {w1 w2 : World H} {b b1 b2 : Outbox Conn (Addr × Bytes)} {o o' : List Event}
    {x x' : List (Act Conn (Addr × Bytes))} (h : Explains env is heap b w1 o x b1)
    (h' : Explains env is' w1.mach.heap b1 w2 o' x' b2) :
    Explains env (is ++ is') heap b w2 (o ++ o') (x ++ x') b2 where
  replay := h.replay.append h'.replay
  refines := h'.refines
  posted c := by rw [posted_append, sentTo_append, h.posted, h'.posted]
  delivered c := by rw [delivered_append, writtenOn_append, h.delivered, h'.delivered]
  drains c := by rw [drains_append, h.drains, h'.drains, writeables_append]
  compact := h.compact.append h'.compact
  balanced := h.balanced.trans h'.balanced

/-- A state with the same queues, phases, sockets and flags. -/
theorem Refines.congr {env : Env H} {w w' : World H} {b : Outbox Conn (Addr × Bytes)}
    (h : Refines env w b) (hheap : w'.mach.heap = w.mach.heap) (hphase : w'.phase = w.phase)
    (hq : ∀ c, (w'.mach.conns c).messages = (w.mach.conns c).messages)
    (hw : ∀ c, (w'.mach.conns c).wsi = (w.mach.conns c).wsi)
    (hp : w'.mach.pending = w.mach.pending) : Refines env w' b where
  coupled := h.coupled.congr hheap hq
  phase := hphase.trans h.phase
  socket c hc := by
    rw [hw]
    exact h.socket c (hphase ▸ hc)
  pending c hc := by
    rw [hp]
    exact h.pending c (hphase ▸ hc)
  sound := h.sound

/-- Nothing happened to any message. -/
theorem Refines.still {env : Env H} {w w' : World H} {b : Outbox Conn (Addr × Bytes)}
    (h : Refines env w' b) (hheap : w'.mach.heap = w.mach.heap) {out : List Event}
    (hout : ∀ e ∈ out, plain e = true) : Explains env [] w.mach.heap b w' out [] b where
  replay := .nil b
  refines := h
  posted _ := (sentTo_plain hout _).symm
  delivered _ := (writtenOn_plain hout _).symm
  drains _ := rfl
  compact := compact_plain hout _
  balanced := hheap ▸ balanced_plain hout _

theorem Explains.append_plain {env : Env H} {is : List (Input H)} {heap : MessageHeap}
    {w : World H} {b b' : Outbox Conn (Addr × Bytes)} {o o' : List Event}
    {x : List (Act Conn (Addr × Bytes))} (h : Explains env is heap b w o x b')
    (ho : ∀ e ∈ o', plain e = true) : Explains env is heap b w (o ++ o') x b' := by
  have hboth := h.append (h.refines.still rfl ho)
  rwa [List.append_nil, List.append_nil] at hboth

theorem Explains.returned {env : Env H} {is : List (Input H)} {heap : MessageHeap}
    {w : World H} {b b' : Outbox Conn (Addr × Bytes)} {o : List Event}
    {x : List (Act Conn (Addr × Bytes))} (h : Explains env is heap b w o x b') :
    Explains env is heap b w (o ++ [.returned 0]) x b' :=
  h.append_plain (by simp [plain])

/-- The JSON values are not part of the relation. -/
theorem Refines.setJson {env : Env H} {w : World H} {b : Outbox Conn (Addr × Bytes)}
    (h : Refines env w b) (json : JsonStore) : Refines env (w.setJson json) b :=
  h.congr rfl rfl (fun _ => rfl) (fun _ => rfl) rfl

/-! ## One message is sent -/

theorem refines_post {env : Env H} {w : World H} {b : Outbox Conn (Addr × Bytes)}
    (h : Refines env w b) {c : Conn} {mach : Machine}
    {p : Addr × Bytes} (hcoupled : Coupled mach (Function.update b.queue c (b.queue c ++ [p])))
    (hsock : ∀ d, (mach.conns d).wsi = (w.mach.conns d).wsi)
    (hpend : mach.pending = Function.update w.mach.pending (env.wsi_of c) true)
    {b' : Outbox Conn (Addr × Bytes)} (hb : Next b (.post c p) b')
    (hb' : b' = { b with
      queue := Function.update b.queue c (b.queue c ++ [p])
      armed := Function.update b.armed c true }) : Refines env { w with mach } b' := by
  subst hb'
  refine ⟨hcoupled, h.phase, fun d hd => ?_, fun d hd => ?_, hb.sound h.sound⟩
  · rw [hsock]
    exact h.socket d hd
  · simp only [hpend]
    by_cases hdc : d = c
    · subst d; simp
    · have hne : env.wsi_of d ≠ env.wsi_of c := fun he => hdc (env.wsi_injective he)
      rw [Function.update_of_ne hne, Function.update_of_ne hdc]
      exact h.pending d hd

theorem sentTo_sendEvents (p : Platform) (c d : Conn) (v : Option JsonRef) (wsi : Wsi)
    (m : Machine) :
    sentTo d (sendEvents p c v wsi m) = if c = d then (newMessage p v m).toList else [] := by
  unfold sendEvents sentTo
  rcases newMessage p v m with _ | q
  · simp [sentBy]
  · by_cases hd : c = d <;> simp [sentBy, hd]

theorem writtenOn_sendEvents (p : Platform) (c : Conn) (v : Option JsonRef) (wsi wsi' : Wsi)
    (m : Machine) : writtenOn wsi' (sendEvents p c v wsi m) = [] := by
  unfold sendEvents writtenOn
  rcases newMessage p v m with _ | q <;> simp [writtenBy]

theorem compact_sendEvents (p : Platform) (c : Conn) (v : Option JsonRef) (wsi : Wsi)
    (m : Machine) : Compact p.lib (sendEvents p c v wsi m) := by
  intro d object message bytes he
  unfold sendEvents newMessage at he
  rcases hoom : m.oom 0 with _ | _
  · simp [hoom] at he
    obtain ⟨_, rfl, _, rfl⟩ := he
    rfl
  · simp [hoom] at he

/-- A call of user code posts one message to the outbox of its connection, or none. -/
theorem send_explains {env : Env H} {w : World H} {b : Outbox Conn (Addr × Bytes)}
    (h : Refines env w b) {c : Conn} (hc : w.phase c = .established) (call : Send) :
    ∃ mach acts b', call.run env.platform c w.mach =
        .ok (mach, sendEvents env.platform c (call.object env.platform w.mach) (env.wsi_of c)
          (call.ready env.platform w.mach)) ∧
      Explains env [] w.mach.heap b { w with mach }
        (sendEvents env.platform c (call.object env.platform w.mach) (env.wsi_of c)
          (call.ready env.platform w.mach)) acts b' := by
  obtain ⟨mach, hrun, hs⟩ := Send.run_spec env.platform call h.coupled (h.socket c hc)
  have hcoupled := hs.coupled
  have hpend := hs.pending
  rcases hnew : newMessage env.platform (call.object env.platform w.mach)
      (call.ready env.platform w.mach) with _ | p
  · -- no memory for the message: nothing is posted
    rw [hnew, Option.toList_none, List.append_nil, Function.update_eq_self] at hcoupled
    rw [hnew, Option.isSome_none, if_neg Bool.false_ne_true] at hpend
    refine ⟨mach, [], b, hrun, .nil b, ?_, fun d => ?_, fun d => ?_, fun d => rfl,
      compact_sendEvents _ _ _ _ _, hs.balanced⟩
    · refine ⟨hcoupled, h.phase, fun d hd => ?_, fun d hd => ?_, h.sound⟩
      · rw [hs.sockets]
        exact h.socket d hd
      · rw [hpend]
        exact h.pending d hd
    · rw [sentTo_sendEvents, hnew]
      simp
    · rw [writtenOn_sendEvents, delivered_nil]
  · rw [hnew, Option.toList_some] at hcoupled
    rw [hnew, Option.isSome_some, if_pos rfl] at hpend
    have hpost : Next b (.post c p) _ := Next.post (h.phase ▸ hc)
    refine ⟨mach, [.post c p], _, hrun, .single hpost,
      refines_post h hcoupled hs.sockets hpend hpost rfl, fun d => ?_, fun d => ?_, fun d => rfl,
      compact_sendEvents _ _ _ _ _, hs.balanced⟩
    · rw [sentTo_sendEvents, hnew]
      by_cases hd : c = d <;> simp [postedBy, hd]
    · rw [writtenOn_sendEvents]
      simp [deliveredBy]

/-! ## User code -/

/-- A part of a step that keeps the relation: it ends well, unless the code around the server
broke a promise. -/
def Keeps (env : Env H) (is : List (Input H)) (heap : MessageHeap) (b : Outbox Conn (Addr × Bytes))
    (r : Except Fault (World H × List Event)) : Prop :=
  r = .error .misuse ∨
    ∃ w' out acts b', r = .ok (w', out) ∧ Explains env is heap b w' out acts b'

/-- Two parts, one after the other. -/
theorem Keeps.bind {env : Env H} {is is' : List (Input H)} {heap : MessageHeap}
    {b : Outbox Conn (Addr × Bytes)} {r : Except Fault (World H × List Event)}
    {f : World H → Except Fault (World H × List Event)} (hr : Keeps env is heap b r)
    (hf : ∀ w1 out b1, r = .ok (w1, out) → Refines env w1 b1 →
      Keeps env is' w1.mach.heap b1 (f w1)) :
    Keeps env (is ++ is') heap b (do
      let (w1, out) ← r
      let (w2, out') ← f w1
      .ok (w2, out ++ out')) := by
  rcases hr with rfl | ⟨w1, out, acts, b1, rfl, h1⟩
  · exact .inl rfl
  · rcases hf w1 out b1 rfl h1.refines with he | ⟨w2, out', acts', b2, he, h2⟩
    · left
      simp [he]
    · right
      exact ⟨w2, out ++ out', acts ++ acts', b2, by simp [he], h1.append h2⟩

theorem exec_keeps (env : Env H) (prog : UserProg H) {w : World H}
    {b : Outbox Conn (Addr × Bytes)} (h : Refines env w b) :
    Keeps env [] w.mach.heap b (exec env.platform prog w) := by
  induction prog generalizing w b with
  | ret => exact .inr ⟨w, [], [], b, rfl, h.still rfl (by simp)⟩
  | compute f k ih =>
    unfold exec
    exact ih _ _ (h.congr rfl rfl (fun _ => rfl) (fun _ => rfl) rfl)
  | send c call k ih =>
    unfold exec
    split
    · rename_i hok
      obtain ⟨mach, acts, b', hrun, hx⟩ := send_explains h hok.1 call
      have hkeeps : Keeps env [] w.mach.heap b ((call.run env.platform c w.mach).map
          fun r => ({ w with mach := r.1 }, r.2)) := by
        rw [hrun]
        exact .inr ⟨_, _, acts, b', rfl, hx⟩
      have hboth : Keeps env ([] ++ []) w.mach.heap b _ :=
        hkeeps.bind (f := exec env.platform k) (fun w1 out b1 _ h1 => ih h1)
      rw [hrun] at hboth ⊢
      exact hboth
    · exact .inl rfl
  | set_userdata c data k ih =>
    unfold exec
    split
    · apply ih
      refine h.congr rfl rfl (fun d => ?_) (fun d => ?_) rfl
      · by_cases hd : d = c
        · subst d; simp [jrpc_connection_set_userdata]
        · simp [jrpc_connection_set_userdata, Function.update_of_ne hd]
      · by_cases hd : d = c
        · subst d; simp [jrpc_connection_set_userdata]
        · simp [jrpc_connection_set_userdata, Function.update_of_ne hd]
    · exact .inl rfl
  | get_userdata c k ih =>
    unfold exec
    split
    · exact ih _ h
    · exact .inl rfl

/-- A handler that is called keeps the relation. -/
theorem callHandler_keeps (env : Env H) (call : Event) (hcall : plain call = true)
    (handler : UserProg H) {w : World H} {b : Outbox Conn (Addr × Bytes)}
    (h : Refines env w b) :
    Keeps env [] w.mach.heap b (callHandler env.platform call handler w) := by
  have hfirst : Keeps env [] w.mach.heap b (.ok (w, [call])) :=
    .inr ⟨w, [call], [], b, rfl, h.still rfl (by simpa using hcall)⟩
  exact hfirst.bind (fun _ _ _ he h1 => by cases he; exact exec_keeps env handler h1)

/-! ## Received frames -/

theorem dispatch_keeps (env : Env H) (c : Conn) (request : JsonRef) {w : World H}
    {b : Outbox Conn (Addr × Bytes)} (h : Refines env w b) :
    Keeps env [] w.mach.heap b (dispatch env.platform env.protocol c request w) := by
  unfold dispatch
  dsimp only
  split
  · split
    · exact callHandler_keeps env _ rfl _ h
    · exact callHandler_keeps env _ rfl _ h
  · exact .inr ⟨w, [], [], b, rfl, h.still rfl (by simp)⟩

theorem process_keeps (env : Env H) (c : Conn) (buffer : Bytes) {w : World H}
    {b : Outbox Conn (Addr × Bytes)} (h : Refines env w b) :
    Keeps env [] w.mach.heap b
      (jrpc_protocol_process env.platform env.protocol c buffer w) := by
  unfold jrpc_protocol_process
  rcases json_loadb env.platform.lib buffer w.mach.json with ⟨json, _ | request⟩
  · exact .inr ⟨w, [], [], b, rfl, h.still rfl (by simp)⟩
  · dsimp only
    rcases dispatch_keeps env c request (h.setJson json) with he | ⟨w1, out, acts, b1, he, hx⟩
    · rw [he]
      exact .inl rfl
    · rw [he, ok_bind]
      exact .inr ⟨_, out, acts, b1, rfl, { hx with refines := hx.refines.setJson _ }⟩

end jrpc.service

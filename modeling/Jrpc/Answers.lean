-- Requests and answers: when the handler answers each request once and nothing else is sent,
-- the messages for a connection are the answers to its requests, one for each, in the order
-- in which the requests came. An answer with no text is an empty message, which has no id.
import Jrpc.Disposal
import Jrpc.Ids
import Jrpc.Serialise

open heap runs
open jrpc.json jrpc.message jrpc.queue jrpc.connection jrpc.protocol

namespace jrpc.service

variable {H : Type}

/-! ## Code that answers once -/

theorem sends_silent {p : Platform} {prog : UserProg H} {w w' : World H} {out : List Event}
    (hs : Silent prog) (h : exec p prog w = .ok (w', out)) : sends out = [] := by
  apply List.filter_eq_nil_iff.mpr
  intro e he
  rcases exec_events h e he with ⟨c, object, message, rfl⟩ | ⟨wsi, rfl⟩
  · exact absurd he (silent_sends hs h)
  · exact Bool.false_ne_true

/-- The message is an answer with this id on this connection, and it was created with memory
for all of it. -/
def AnswerTo (p : Platform) (request : Conn × Int64) (e : Event) : Prop :=
  ∃ answer m object message, e = .send request.1 object message ∧
    Answers request.2.toInt32 answer ∧ MadeBy p request.1 answer m object message ∧ Plenty m

theorem exec_answers_once {p : Platform} {c : Conn} {i : Int64} {prog : UserProg H}
    {w w' : World H} {out : List Event} (hP : AnswersOnce c i.toInt32 prog)
    (hw : Plenty w.mach) (h : exec p prog w = .ok (w', out)) :
    ∃ e, sends out = [e] ∧ AnswerTo p (c, i) e := by
  induction prog generalizing w out with
  | ret => exact hP.elim
  | compute f k ih =>
    refine ih _ _ (hP _ _) ?_ (exec_compute h)
    exact hw
  | send d call k ih =>
    obtain ⟨mach, o, o', hvalid, hrun, hk, rfl⟩ := exec_send h
    obtain ⟨rfl, hanswers, hsilent⟩ := hP
    obtain ⟨_, message, rest, hout, _, hrest⟩ := Send.run_events hrun
    have hnone : sends rest = [] := by
      apply List.filter_eq_nil_iff.mpr
      intro e he
      obtain ⟨wsi, rfl⟩ := hrest e he
      exact Bool.false_ne_true
    refine ⟨_, ?_, call, w.mach, _, message, rfl, hanswers,
      ⟨hvalid, mach, o, hrun, hout ▸ List.mem_cons_self⟩, hw⟩
    rw [sends_append, sends_silent hsilent hk, List.append_nil, hout]
    unfold sends at hnone ⊢
    rw [List.filter_cons_of_pos rfl, hnone]
  | set_userdata d data k ih =>
    refine ih hP ?_ (exec_set_userdata h)
    exact hw
  | get_userdata d k ih => exact ih _ (hP _) hw (exec_get_userdata h)

/-! ## Handlers that answer once -/

/-- The handler of requests answers each of them once and sends nothing else, and no other
handler sends anything. -/
structure AnswersEach (protocol : JrpcProtocol H) : Prop where
  onmethod : ∀ c method_name params id,
    AnswersOnce c id (protocol.onmethod c method_name params id)
  onnotify : ∀ c method_name params, Silent (protocol.onnotify c method_name params)
  onconnected : ∀ c, Silent (protocol.onconnected c)
  ondisconnected : ∀ c, Silent (protocol.ondisconnected c)

/-- The handlers that a server has from the start. -/
theorem default_answersEach (server : Nat) (fd : Int32 × Int32) :
    AnswersEach (jrpc_server_protocol_init server fd : JrpcProtocol H) where
  onmethod _ _ _ _ := ⟨rfl, rfl, trivial⟩
  onnotify _ _ _ := trivial
  onconnected _ := trivial
  ondisconnected _ := trivial

/-- The request that comes with an input. -/
def requestIn (lib : JsonLib) (i : Input H) : Option (Conn × Int64) :=
  (frameIn i).bind fun f => ((callIn lib f.2).bind (·.id)).map fun id => (f.1, id)

/-- A step sends one answer to the request that comes with it, and nothing else. -/
theorem step_answers {env : Env H} {w w' : World H} {i : Input H} {out : List Event}
    (hans : AnswersEach env.protocol) (hi : ∀ prog, i = .user prog → Silent prog)
    (hw : Plenty w.mach) (h : step env w i = .ok (w', out)) :
    List.Forall₂ (AnswerTo env.platform) (requestIn env.platform.lib i).toList (sends out) := by
  obtain ⟨prog, w1, w2, o, hcode, hexec, hbefore, _, _, hsends⟩ := step_ran h
  have hw1 : Plenty w1.mach := by
    intro n
    rw [hbefore]
    exact hw n
  rw [hsends]
  have hquiet : Silent prog → requestIn env.platform.lib i = none →
      List.Forall₂ (AnswerTo env.platform) (requestIn env.platform.lib i).toList (sends o) := by
    intro hsilent hnone
    rw [hnone, sends_silent hsilent hexec]
    exact .nil
  cases i with
  | user q =>
    cases hcode
    exact hquiet (hi _ rfl) rfl
  | callback cb =>
    obtain ⟨wsi, reason, user, has_protocol⟩ := cb
    cases user with
    | none =>
      cases hcode
      exact hquiet trivial (by cases reason <;> rfl)
    | some c =>
      cases reason with
      | established =>
        cases hcode
        exact hquiet (hans.onconnected c) rfl
      | closed =>
        cases hcode
        exact hquiet (hans.ondisconnected c) rfl
      | receive buffer =>
        simp only [InputCode, UserCode] at hcode
        rcases hcall : callIn env.platform.lib buffer with _ | call
        · rw [hcall] at hcode
          cases hcode
          exact hquiet trivial (by simp [requestIn, frameIn, hcall])
        · rw [hcall] at hcode
          obtain ⟨params, rfl⟩ := hcode
          unfold Call.handler at hexec hquiet
          rcases hid : call.id with _ | id
          · rw [hid] at hquiet
            exact hquiet (hans.onnotify _ _ _) (by simp [requestIn, frameIn, hcall, hid])
          · rw [hid] at hexec
            obtain ⟨e, he, hanswer⟩ := exec_answers_once (hans.onmethod _ _ _ _) hw1 hexec
            simp only [requestIn, frameIn, Option.bind_some, hcall, hid, Option.map_some,
              Option.toList_some, he]
            exact .cons hanswer .nil
      | _ =>
        cases hcode
        exact hquiet trivial rfl

/-- A run sends one answer to each request, in the order in which they came. -/
theorem run_answers {env : Env H} {w w' : World H} {is : List (Input H)} {out : List Event}
    (hans : AnswersEach env.protocol) (his : ∀ prog, .user prog ∈ is → Silent prog)
    (hw : Plenty w.mach) (h : run (step env) w is = .ok (w', out)) :
    List.Forall₂ (AnswerTo env.platform) (is.filterMap (requestIn env.platform.lib))
      (sends out) := by
  induction is generalizing w out with
  | nil =>
    cases h
    exact .nil
  | cons i is ih =>
    obtain ⟨w1, o, o', hstep, hrest, rfl⟩ := run_cons_ok.mp h
    have hfirst := step_answers hans
      (fun prog he => his prog (he ▸ List.mem_cons_self)) hw hstep
    have hothers := ih (fun prog hm => his prog (List.mem_cons_of_mem i hm))
      (step_plenty hw hstep) hrest
    have hboth := List.rel_append hfirst hothers
    rw [sends_append]
    rcases hr : requestIn env.platform.lib i with _ | r
    · rw [hr] at hboth
      rw [List.filterMap_cons_none hr]
      exact hboth
    · rw [hr] at hboth
      rw [List.filterMap_cons_some hr]
      exact hboth

/-! ## The answers on one connection -/

/-- The message has the text of a frame that was sent to the connection, with this id. -/
def HasId (lib : JsonLib) (c : Conn) (out : List Event) (i : Int64) (message : Addr × Bytes) :
    Prop :=
  ∃ frame, .send c (some frame) (some message) ∈ out ∧ lib.dumps frame = some message.2 ∧
    frame.get "id" = some (.integer i)

/-- Every object that is sent to the connection has a text. -/
def PrintedOn (lib : JsonLib) (c : Conn) (out : List Event) : Prop :=
  ∀ object message, .send c object message ∈ out → (object.bind lib.dumps).isSome

/-- The message of an answer has the id of its request. -/
theorem AnswerTo.hasId {env : Env H} {c : Conn} {i : Int64} {e : Event} {out : List Event}
    (h : AnswerTo env.platform (c, i) e) (he : e ∈ out)
    (hprinted : PrintedOn env.platform.lib c out) (hi : FitsInt i) :
    ∃ message, sentBy c e = some message ∧ HasId env.platform.lib c out i message := by
  obtain ⟨answer, m, object, message, rfl, hanswers, hmade, hm⟩ := h
  obtain ⟨hobject, hcreated⟩ := hmade.object_eq
  obtain ⟨message, rfl⟩ := Option.isSome_iff_exists.mp (hcreated (hm _))
  obtain ⟨bytes, htext⟩ := Option.isSome_iff_exists.mp (hprinted _ _ he)
  obtain ⟨frame, rfl, hdumps⟩ := Option.bind_eq_some_iff.mp htext
  obtain ⟨hthere, hid⟩ := id_of_answer hanswers hmade.valid hobject.symm
  rw [idMade_of_plenty hm hanswers] at hthere
  obtain ⟨j, hj⟩ := Option.isSome_iff_exists.mp hthere
  refine ⟨message, by simp [sentBy], frame, he, ?_, ?_⟩
  · rw [hmade.text_eq, Option.bind_some, hdumps]
    rfl
  · rw [hj, hid j hj, (int_id_iff i).mpr hi]

/-- The messages for one connection are the answers to its requests. -/
theorem answers_on {env : Env H} {c : Conn} {out : List Event}
    (hprinted : PrintedOn env.platform.lib c out)
    {requests : List (Conn × Int64)} {es : List Event}
    (h : List.Forall₂ (AnswerTo env.platform) requests es) (hes : ∀ e ∈ es, e ∈ out)
    (hfit : ∀ r ∈ requests, r.1 = c → FitsInt r.2) :
    List.Forall₂ (HasId env.platform.lib c out)
      ((requests.filter fun r => r.1 = c).map (·.2)) (sentTo c es) := by
  induction h with
  | nil => exact .nil
  | @cons r e requests es hre _ ih =>
    have hrest := ih (fun e he => hes e (List.mem_cons_of_mem _ he))
      (fun r hr => hfit r (List.mem_cons_of_mem _ hr))
    obtain ⟨d, i⟩ := r
    by_cases hd : d = c
    · subst hd
      obtain ⟨message, hsent, hid⟩ := hre.hasId (hes e List.mem_cons_self) hprinted
        (hfit _ List.mem_cons_self rfl)
      rw [List.filter_cons_of_pos (by simp), List.map_cons]
      unfold sentTo at hrest ⊢
      rw [List.filterMap_cons_some hsent]
      exact .cons hid hrest
    · obtain ⟨_, _, object, message, rfl, _⟩ := hre
      have hother : sentBy c (.send d object message) = none := if_neg hd
      rw [List.filter_cons_of_neg (by simpa using hd)]
      unfold sentTo at hrest ⊢
      rw [List.filterMap_cons_none hother]
      exact hrest

/-- The requests for one connection come from the buffers of the connection. -/
theorem requests_on (lib : JsonLib) (c : Conn) (is : List (Input H)) :
    ((is.filterMap (requestIn lib)).filter fun r => r.1 = c).map (·.2) =
      requestIds lib (received c is) := by
  induction is with
  | nil => rfl
  | cons i is ih =>
    unfold requestIds received frames at ih ⊢
    rcases hf : frameIn i with _ | f
    · rw [List.filterMap_cons_none (by rw [requestIn, hf]; rfl), List.filterMap_cons_none hf, ih]
    · rw [List.filterMap_cons_some hf]
      rcases hid : (callIn lib f.2).bind (·.id) with _ | id
      · rw [List.filterMap_cons_none (by rw [requestIn, hf, Option.bind_some, hid]; rfl), ih]
        by_cases hc : f.1 = c <;> simp [hc, hid]
      · rw [List.filterMap_cons_some (by rw [requestIn, hf, Option.bind_some, hid]; rfl)]
        by_cases hc : f.1 = c <;> simp [hc, hid, ih]

/-- With memory for all of it, an answer is sent in a message. -/
theorem AnswerTo.sent {p : Platform} {request : Conn × Int64} {c : Conn} {object : Option Json}
    {message : Option (Addr × Bytes)} (h : AnswerTo p request (.send c object message)) :
    message.isSome := by
  obtain ⟨answer, m, object', message', he, _, hmade, hm⟩ := h
  cases he
  exact hmade.object_eq.2 (hm _)

theorem mem_of_forall₂ {α β : Type} {R : α → β → Prop} {l : List α} {l' : List β}
    (h : List.Forall₂ R l l') {y : β} (hy : y ∈ l') : ∃ x, R x y := by
  induction h with
  | nil => cases hy
  | cons hr _ ih =>
    rcases List.mem_cons.mp hy with rfl | hy
    · exact ⟨_, hr⟩
    · exact ih hy

/-- Let the handler of requests answer each of them once, let nothing else be sent, and let no
allocation fail. Since a connection was established, what was written on its socket, and then
what its queue holds, is one answer to each of its requests, in the order in which these came
and with their ids, which fit into a C `int`. This holds just when all objects that were sent to
the connection have a text. -/
theorem answers_match_requests_iff (env : Env H) (json : JsonStore) (oom : Nat → Bool) (user : H)
    {before after : List (Input H)} {w0 w : World H} {out0 out : List Event} {cb : Callback}
    {c : Conn} (hans : AnswersEach env.protocol) (hoom : ∀ n, oom n = false)
    (hbefore : run (step env) (start json oom user) before = .ok (w0, out0))
    (hu : cb.user = some c) (hr : cb.reason = .established)
    (hafter : run (step env) w0 (.callback cb :: after) = .ok (w, out))
    (hc : w.phase c = .established) (hsilent : ∀ prog, .user prog ∈ after → Silent prog)
    (hfit : ∀ i ∈ requestIds env.platform.lib (received c after), FitsInt i) :
    ∃ l, Holds w.mach.heap (w.mach.conns c).messages l ∧
      (List.Forall₂ (HasId env.platform.lib c out)
          (requestIds env.platform.lib (received c after)) (writtenOn (env.wsi_of c) out ++ l) ↔
        PrintedOn env.platform.lib c out) := by
  obtain ⟨_, b0, h0⟩ := run_explains (start_refines env json oom user) hbefore
  obtain ⟨l, hl, horder, _⟩ := written_then_waiting h0.refines hu hr hafter hc
  have hw0 : Plenty w0.mach := run_plenty (w := start json oom user) hoom hbefore
  have hanswers := run_answers hans (fun prog hm => by
    rcases List.mem_cons.mp hm with he | hm
    · cases he
    · exact hsilent prog hm) hw0 hafter
  refine ⟨l, hl, ?_⟩
  rw [horder]
  constructor
  · -- the message of each answer is sent once, so its id is read from its own object
    intro hall object message he
    obtain ⟨request, hanswer⟩ := mem_of_forall₂ hanswers (mem_sends.mpr he)
    obtain ⟨message, rfl⟩ := Option.isSome_iff_exists.mp hanswer.sent
    have hsent : message ∈ sentTo c out :=
      List.mem_filterMap.mpr ⟨_, he, by simp [sentBy]⟩
    obtain ⟨i, frame, he', hdumps, _⟩ := mem_of_forall₂ hall hsent
    have hwhole := run_append_ok.mpr ⟨w0, out0, out, hbefore, hafter, rfl⟩
    obtain ⟨_, rfl⟩ := sent_once hwhole (List.mem_append_right _ he)
      (List.mem_append_right _ he')
    rw [Option.bind_some, hdumps]
    rfl
  · intro hprinted
    have hreceived : received c (.callback cb :: after) = received c after := by
      obtain ⟨wsi, reason, user, has_protocol⟩ := cb
      simp only at hu hr
      subst hu hr
      rfl
    have hrequests := requests_on env.platform.lib c (.callback cb :: after)
    rw [hreceived] at hrequests
    have hall := answers_on (c := c) hprinted hanswers
      (fun e he => (List.mem_filter.mp he).1) (fun r hr' hrc => ?_)
    · rwa [hrequests, sentTo_sends] at hall
    · apply hfit
      rw [← hrequests]
      exact List.mem_map_of_mem (List.mem_filter.mpr ⟨hr', by simpa using hrc⟩)

def isPrinted (lib : JsonLib) : Event → Bool
  | .send _ object _ => (object.bind lib.dumps).isSome
  | _ => true

theorem printed_of_test {lib : JsonLib} {out : List Event} (h : out.all (isPrinted lib) = true)
    (c : Conn) : PrintedOn lib c out := by
  intro object message he
  have htest := List.all_eq_true.mp h _ he
  exact htest

/-- On each of two connections one answer is written and the other one waits. They have the ids
of the requests there. -/
theorem answers_match_requests_iff_sample :
    ∃ w0 out0 w out l7 l8,
      run (step (twoIds 1 2)) sampleStart [callbackFor 7 .established] = .ok (w0, out0) ∧
      run (step (twoIds 1 2)) w0 twoClients = .ok (w, out) ∧
      Holds w.mach.heap (w.mach.conns 7).messages l7 ∧
      List.Forall₂ (HasId (twoIds 1 2).platform.lib 7 (out0 ++ out)) [1, 2]
        (writtenOn 7 (out0 ++ out) ++ l7) ∧
      Holds w.mach.heap (w.mach.conns 8).messages l8 ∧
      List.Forall₂ (HasId (twoIds 1 2).platform.lib 8 out) [2, 1] (writtenOn 8 out ++ l8) := by
  have htest : runEnds (step (twoIds 1 2)) sampleStart [callbackFor 7 .established]
      (fun w0 out0 => runEnds (step (twoIds 1 2)) w0 twoClients fun w out =>
        decide (w.phase 7 = .established ∧ w.phase 8 = .established ∧
          (out0 ++ out).all (isPrinted (twoIds 1 2).platform.lib) = true ∧
          out.all (isPrinted (twoIds 1 2).platform.lib) = true)) = true := by decide +kernel
  have hids7 : requestIds (twoIds 1 2).platform.lib (received 7 twoClients) = [1, 2] := by
    decide +kernel
  have hids8 : requestIds (twoIds 1 2).platform.lib (received 8 twoClients.tail) = [2, 1] := by
    decide +kernel
  have hfit7 : ∀ i ∈ requestIds (twoIds 1 2).platform.lib (received 7 twoClients),
      FitsInt i := by
    rw [hids7]
    exact List.forall_mem_cons.mpr
      ⟨by decide, List.forall_mem_cons.mpr ⟨by decide, List.forall_mem_nil _⟩⟩
  have hfit8 : ∀ i ∈ requestIds (twoIds 1 2).platform.lib (received 8 twoClients.tail),
      FitsInt i := by
    rw [hids8]
    exact List.forall_mem_cons.mpr
      ⟨by decide, List.forall_mem_cons.mpr ⟨by decide, List.forall_mem_nil _⟩⟩
  obtain ⟨w0, out0, hrun0, htest⟩ := runEnds_spec htest
  obtain ⟨w, out, hrun, htest⟩ := runEnds_spec htest
  obtain ⟨hc7, hc8, hprinted7, hprinted8⟩ := of_decide_eq_true htest
  have hboth := run_append_ok.mpr ⟨w0, out0, out, hrun0, hrun, rfl⟩
  have hquiet : ∀ prog, .user prog ∈ twoClients → Silent prog := by
    intro prog hm
    simp [twoClients, receiveFrame, callbackFor] at hm
  obtain ⟨l7, hl7, hiff7⟩ := answers_match_requests_iff (twoIds 1 2) .empty (fun _ => false) ()
    (default_answersEach 0 (3, 4)) (fun _ => rfl) (rfl : run _ _ [] = _) rfl rfl hboth hc7
    hquiet hfit7
  obtain ⟨l8, hl8, hiff8⟩ := answers_match_requests_iff (twoIds 1 2) .empty (fun _ => false) ()
    (default_answersEach 0 (3, 4)) (fun _ => rfl) hrun0 rfl rfl hrun hc8
    (fun prog hm => hquiet prog (List.mem_cons_of_mem _ hm)) hfit8
  have hall7 : List.Forall₂ _ (requestIds _ (received 7 twoClients)) _ :=
    hiff7.mpr (printed_of_test hprinted7 7)
  have hall8 : List.Forall₂ _ (requestIds _ (received 8 twoClients.tail)) _ :=
    hiff8.mpr (printed_of_test hprinted8 8)
  rw [hids7] at hall7
  rw [hids8] at hall8
  exact ⟨w0, out0, w, out, l7, l8, hrun0, hrun, hl7, hall7, hl8, hall8⟩

/-- A server that knows one call, and answers it with a value that the user code keeps. -/
def keepsAnswer : Env Unit :=
  { sample [callFrame 1] with
    protocol := { (jrpc_server_protocol_init 0 (3, 4) : JrpcProtocol Unit) with
      onmethod := fun c _ _ id => .send c (.respond (some (.node 1)) id) .ret } }

/-- The handler answers the request once and with its id, no allocation fails, and the message
is created. The value that it answers with holds a text that is not UTF-8, so what is written is
empty, and has no id. -/
theorem answer_without_id :
    AnswersEach keepsAnswer.protocol ∧ ∃ w out,
      run (step keepsAnswer) (start (arrayOf [255]) (fun _ => false) ())
        [callbackFor 7 .established, receiveFrame 7 (callFrame 1),
          callbackFor 7 (.server_writeable 0)] = .ok (w, out) ∧
      w.phase 7 = .established ∧
      requestIds keepsAnswer.platform.lib (received 7 [callbackFor 7 .established,
        receiveFrame 7 (callFrame 1), callbackFor 7 (.server_writeable 0)]) = [1] ∧
      (sends out).length = 1 ∧ sentTo 7 out = [(0, [])] ∧ writtenOn 7 out = [(0, [])] ∧
      ∀ l, Holds w.mach.heap (w.mach.conns 7).messages l →
        ¬ List.Forall₂ (HasId keepsAnswer.platform.lib 7 out) [1] (writtenOn 7 out ++ l) := by
  have htest : runEnds (step keepsAnswer) (start (arrayOf [255]) (fun _ => false) ())
      [callbackFor 7 .established, receiveFrame 7 (callFrame 1),
        callbackFor 7 (.server_writeable 0)]
      (fun w out => decide (w.phase 7 = .established ∧ (sends out).length = 1 ∧
        sentTo 7 out = [(0, [])] ∧ writtenOn 7 out = [(0, [])])) = true := by decide +kernel
  refine ⟨⟨fun _ _ _ _ => ⟨rfl, rfl, trivial⟩, fun _ _ _ => trivial, fun _ => trivial,
    fun _ => trivial⟩, ?_⟩
  obtain ⟨w, out, hrun, htest⟩ := runEnds_spec htest
  obtain ⟨hc, hone, hsent, hwritten⟩ := of_decide_eq_true htest
  refine ⟨w, out, hrun, hc, by decide +kernel, hone, hsent, hwritten, ?_⟩
  intro l _ hall
  rw [hwritten] at hall
  obtain ⟨frame, _, hdumps, _⟩ := (List.forall₂_cons.mp hall).1
  exact printsText_sample _ frame _ hdumps rfl

end jrpc.service

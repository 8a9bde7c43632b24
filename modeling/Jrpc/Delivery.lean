-- What a client gets: the messages that were sent to its connection, in this order, each of
-- them once and as it was when it was sent. While messages wait, a writable callback is
-- asked for, and each of these callbacks hands one message over.
import Jrpc.Callbacks

open heap runs outbox
open jrpc.json jrpc.message jrpc.queue jrpc.connection jrpc.protocol

namespace jrpc.service

variable {H : Type}

/-! ## A server to try the laws on

The JSON library of this server knows the compact text of a few values. It prints values
with no reals and no text that needs an escape. -/

/-- Text that is printed as it is: printable ASCII but for the quote and the backslash. -/
def verbatim (t : Bytes) : Bool := t.all fun c => 32 ≤ c && c < 127 && c != 34 && c != 92

mutual

def print : Json → Option Bytes
  | .null => some (text "null")
  | .true => some (text "true")
  | .false => some (text "false")
  | .integer i => some (text (toString i.toInt))
  | .real _ => none
  | .string t => if verbatim t then some (text "\"" ++ t ++ text "\"") else none
  | .array vs => (printList vs).map fun t => text "[" ++ t ++ text "]"
  | .object ms => (printMembers ms).map fun t => text "\x7b" ++ t ++ text "\x7d"

def printList : List Json → Option Bytes
  | [] => some []
  | [v] => print v
  | v :: vs => do
    let t ← print v
    let ts ← printList vs
    some (t ++ text "," ++ ts)

def printMembers : List (String × Json) → Option Bytes
  | [] => some []
  | [(k, v)] => (print v).map fun t => text "\"" ++ text k ++ text "\":" ++ t
  | (k, v) :: ms => do
    let t ← print v
    let ts ← printMembers ms
    some (text "\"" ++ text k ++ text "\":" ++ t ++ text "," ++ ts)

end

def sampleLib (known : List Json) : JsonLib where
  loads b := known.find? fun v => print v == some b
  dumps := print
  utf8 t := t.all fun c => c < 128

/-- A call of a method with no parameters. -/
def callFrame (id : Int64) : Json :=
  .object [("method", .string (text "add")), ("params", .array []), ("id", .integer id)]

example : print (callFrame 42) =
    some (text "\x7b\"method\":\"add\",\"params\":[],\"id\":42\x7d") := by decide

/-- A server with the handlers that it has from the start. -/
def sample (known : List Json) : Env Unit where
  platform := ⟨sampleLib known, ⟨64, 24, 16⟩⟩
  protocol := jrpc_server_protocol_init 0 (3, 4)
  wsi_of c := c
  wsi_injective := fun _ _ h => h

/-- A server that has not run yet, and that never runs out of memory. -/
def sampleStart : World Unit := start .empty (fun _ => false) ()

/-- A callback of the socket of a session. -/
def callbackFor (c : Conn) (reason : Reason) : Input Unit := .callback ⟨c, reason, some c, true⟩

def receiveFrame (c : Conn) (v : Json) : Input Unit :=
  callbackFor c (.receive ((print v).getD []))

/-! ## Order -/

/-- An established callback that comes finds a session that is fresh. -/
theorem fresh_of_established {env : Env H} {w w' : World H} {cb : Callback} {c : Conn}
    {out : List Event} (hu : cb.user = some c) (hr : cb.reason = .established)
    (hs : step env w (.callback cb) = .ok (w', out)) : w.phase c = .fresh := by
  have hd := deliverable_of_step hs
  unfold Deliverable at hd
  rw [hu, hr] at hd
  exact hd.2.1

/-- From its established callback on, what is written to a session and what its queue holds
is what is sent to it. -/
theorem written_then_waiting {env : Env H} {w0 w : World H} {b0 : Outbox Conn (Addr × Bytes)}
    (h0 : Refines env w0 b0) {cb : Callback} {c : Conn} {after : List (Input H)}
    {out : List Event} (hu : cb.user = some c) (hr : cb.reason = .established)
    (hafter : run (step env) w0 (.callback cb :: after) = .ok (w, out))
    (hc : w.phase c = .established) :
    ∃ l, Holds w.mach.heap (w.mach.conns c).messages l ∧
      writtenOn (env.wsi_of c) out ++ l = sentTo c out ∧ Compact env.platform.lib out := by
  obtain ⟨acts, b, h⟩ := run_explains h0 hafter
  obtain ⟨_, _, _, hstep, _, _⟩ := run_cons_ok.mp hafter
  have hfresh : b0.phase c = .fresh := by
    rw [← h0.phase]
    exact fresh_of_established hu hr hstep
  have hledger := ledger_replay hfresh h.replay
  unfold Ledger at hledger
  rw [← h.refines.phase, hc] at hledger
  refine ⟨b.queue c, h.refines.coupled.holds c, ?_, h.compact⟩
  rw [← h.delivered, ← h.posted]
  exact hledger

/-- Since a connection was established, what was written on its socket, and then what its
queue holds, is what was sent to it. Each message has the text that its object had when it
was sent. -/
theorem messages_arrive_in_order (env : Env H) (json : JsonStore) (oom : Nat → Bool) (user : H)
    {before after : List (Input H)} {w0 w : World H} {out0 out : List Event} {cb : Callback}
    {c : Conn} (hbefore : run (step env) (start json oom user) before = .ok (w0, out0))
    (hu : cb.user = some c) (hr : cb.reason = .established)
    (hafter : run (step env) w0 (.callback cb :: after) = .ok (w, out))
    (hc : w.phase c = .established) :
    ∃ l, Holds w.mach.heap (w.mach.conns c).messages l ∧
      writtenOn (env.wsi_of c) out ++ l = sentTo c out ∧
      ∀ object message bytes, .send c object (some (message, bytes)) ∈ out →
        bytes = (object.bind env.platform.lib.dumps).getD [] := by
  obtain ⟨_, b0, h0⟩ := run_explains (start_refines env json oom user) hbefore
  obtain ⟨l, hl, horder, hcompact⟩ := written_then_waiting h0.refines hu hr hafter hc
  exact ⟨l, hl, horder, hcompact c⟩

/-- Two calls of a method, and one callback to write. -/
def twoCalls (c : Conn) : List (Input Unit) :=
  [callbackFor c .established, receiveFrame c (callFrame 1), receiveFrame c (callFrame 2),
    callbackFor c (.server_writeable 9)]

/-- Two calls on each of two connections, the first of which is established before, and one
callback to write for each of them. -/
def twoClients : List (Input Unit) :=
  [callbackFor 8 .established, receiveFrame 7 (callFrame 1), receiveFrame 8 (callFrame 2),
    receiveFrame 7 (callFrame 2), receiveFrame 8 (callFrame 1),
    callbackFor 8 (.server_writeable 9), callbackFor 7 (.server_writeable 9)]

/-- On each of two connections one answer is written, and the other one waits. -/
theorem messages_arrive_in_order_sample :
    ∃ w0 out0 w out l7 l8, run (step (sample [callFrame 1, callFrame 2])) sampleStart
        [callbackFor 7 .established] = .ok (w0, out0) ∧
      run (step (sample [callFrame 1, callFrame 2])) w0 twoClients = .ok (w, out) ∧
      Holds w.mach.heap (w.mach.conns 7).messages l7 ∧ l7.length = 1 ∧
      writtenOn 7 (out0 ++ out) ++ l7 = sentTo 7 (out0 ++ out) ∧
      Holds w.mach.heap (w.mach.conns 8).messages l8 ∧ l8.length = 1 ∧
      writtenOn 8 out ++ l8 = sentTo 8 out := by
  have htest : runEnds (step (sample [callFrame 1, callFrame 2])) sampleStart
      [callbackFor 7 .established] (fun w0 out0 =>
        runEnds (step (sample [callFrame 1, callFrame 2])) w0 twoClients fun w out =>
          decide (w.phase 7 = .established ∧ (sentTo 7 (out0 ++ out)).length = 2 ∧
            (writtenOn 7 (out0 ++ out)).length = 1 ∧ w.phase 8 = .established ∧
            (sentTo 8 out).length = 2 ∧ (writtenOn 8 out).length = 1)) = true := by
    decide +kernel
  obtain ⟨w0, out0, hrun0, htest⟩ := runEnds_spec htest
  obtain ⟨w, out, hrun, htest⟩ := runEnds_spec htest
  obtain ⟨hc7, hsent7, hwritten7, hc8, hsent8, hwritten8⟩ := of_decide_eq_true htest
  have hboth := run_append_ok.mpr ⟨w0, out0, out, hrun0, hrun, rfl⟩
  obtain ⟨l7, hl7, horder7, _⟩ := messages_arrive_in_order (sample [callFrame 1, callFrame 2])
    .empty (fun _ => false) () (rfl : run _ _ [] = _) rfl rfl hboth hc7
  obtain ⟨l8, hl8, horder8, _⟩ := messages_arrive_in_order (sample [callFrame 1, callFrame 2])
    .empty (fun _ => false) () hrun0 rfl rfl hrun hc8
  have hlength7 := congrArg List.length horder7
  rw [List.length_append, hsent7] at hlength7
  have hlength8 := congrArg List.length horder8
  rw [List.length_append, hsent8] at hlength8
  refine ⟨w0, out0, w, out, l7, l8, hrun0, hrun, hl7, ?_, horder7, hl8, ?_, horder8⟩
  · have hwritten : (writtenOn 7 (out0 ++ out)).length + l7.length = 2 := hlength7
    omega
  · have hwritten : (writtenOn 8 out).length + l8.length = 2 := hlength8
    omega

/-! ## No message waits for ever -/

/-- The writable callback of an established session. -/
def writeable (env : Env H) (c : Conn) (result : Int32) : Callback :=
  ⟨env.wsi_of c, .server_writeable result, some c, true⟩

theorem pending_iff {env : Env H} {w : World H} {b : Outbox Conn (Addr × Bytes)}
    (h : Refines env w b) {c : Conn} (hc : w.phase c = .established) :
    w.mach.pending (env.wsi_of c) = true ↔ 0 < (b.queue c).length := by
  rw [h.pending c hc, (h.sound c).armed (h.phase ▸ hc), List.length_pos_iff]
  simp

/-- With no new message, each writable callback takes one message off the queue. -/
theorem drained {env : Env H} {w w' : World H} {b : Outbox Conn (Addr × Bytes)}
    (h : Refines env w b) {c : Conn} (hc : w.phase c = .established) {after : List (Input H)}
    {out : List Event} (hr : run (step env) w after = .ok (w', out))
    (hc' : w'.phase c = .established) (hquiet : sentTo c out = []) :
    Holds w'.mach.heap (w'.mach.conns c).messages ((b.queue c).drop (writeables c after)) ∧
      writtenOn (env.wsi_of c) out = (b.queue c).take (writeables c after) ∧
      (w'.mach.pending (env.wsi_of c) = true ↔ writeables c after < (b.queue c).length) := by
  obtain ⟨acts, b', hx⟩ := run_explains h hr
  obtain ⟨hqueue, hdelivered⟩ := backlog hx.replay (h.phase ▸ hc) (hx.refines.phase ▸ hc')
    ((hx.posted c).trans hquiet)
  rw [hx.drains] at hqueue hdelivered
  refine ⟨?_, ?_, ?_⟩
  · rw [← hqueue]
    exact hx.refines.coupled.holds c
  · rw [← hx.delivered, hdelivered]
  · rw [pending_iff hx.refines hc', hqueue, List.length_drop, Nat.sub_pos_iff_lt]

/-- The writable callback of an established session always ends well. It hands over the first
message of the queue of the session, and no message of another one. -/
theorem writeable_delivers {env : Env H} {w : World H} {b : Outbox Conn (Addr × Bytes)}
    (h : Refines env w b) {c : Conn} (hc : w.phase c = .established) (result : Int32) :
    ∃ w' out, step env w (.callback (writeable env c result)) = .ok (w', out) ∧
      Holds w'.mach.heap (w'.mach.conns c).messages ((b.queue c).drop 1) ∧
      writtenOn (env.wsi_of c) out = (b.queue c).take 1 ∧
      ∀ d, d ≠ c → writtenOn (env.wsi_of d) out = [] := by
  have hd : Deliverable env w (writeable env c result) := ⟨rfl, hc, rfl⟩
  obtain ⟨w', out, acts, b', hs, hx, hphase, hposted⟩ := writeable_explains h rfl rfl hd
  have hcount : ∀ d, writeables d [(.callback (writeable env c result) : Input H)] =
      if c = d then 1 else 0 := by
    intro d
    simp [writeables, List.countP_cons, writeableFor, writeable]
  have hone : run (step env) w [.callback (writeable env c result)] = .ok (w', out) :=
    run_one_ok.mpr hs
  have hquiet : sentTo c out = [] := by rw [← hx.posted, hposted]
  obtain ⟨hqueue, hwritten, _⟩ := drained h hc hone (hphase ▸ hc) hquiet
  rw [hcount, if_pos rfl] at hqueue hwritten
  refine ⟨w', out, hs, hqueue, hwritten, fun d hd => ?_⟩
  have hle := delivered_le_drains d acts
  rw [hx.drains, hcount, if_neg (Ne.symm hd), hx.delivered] at hle
  exact List.eq_nil_of_length_eq_zero (Nat.le_zero.mp hle)

/-- Between two callbacks, a writable callback of an established session is asked for just
when its queue holds a message. Each writable callback hands over the first message of its
queue and no message of another one. So as many of them as there are messages empty a
queue to which nothing more is sent, and no fewer. -/
theorem no_message_is_stuck (env : Env H) (json : JsonStore) (oom : Nat → Bool) (user : H)
    {is : List (Input H)} {w : World H} {hist : List Event} {c : Conn}
    (hr : run (step env) (start json oom user) is = .ok (w, hist))
    (hc : w.phase c = .established) :
    (w.mach.pending (env.wsi_of c) = true ↔
        jrpc_queue_is_empty (w.mach.conns c).messages = false) ∧
      ∃ l, Holds w.mach.heap (w.mach.conns c).messages l ∧
        (∀ result, ∃ w' out,
          step env w (.callback (writeable env c result)) = .ok (w', out) ∧
            Holds w'.mach.heap (w'.mach.conns c).messages (l.drop 1) ∧
            writtenOn (env.wsi_of c) out = l.take 1 ∧
            ∀ d, d ≠ c → writtenOn (env.wsi_of d) out = []) ∧
        ∀ after w' out, run (step env) w after = .ok (w', out) → w'.phase c = .established →
          sentTo c out = [] →
          Holds w'.mach.heap (w'.mach.conns c).messages (l.drop (writeables c after)) ∧
            writtenOn (env.wsi_of c) out = l.take (writeables c after) ∧
            (w'.mach.pending (env.wsi_of c) = true ↔ writeables c after < l.length) := by
  obtain ⟨_, b, hx⟩ := run_explains (start_refines env json oom user) hr
  have h := hx.refines
  have hholds := h.coupled.holds c
  refine ⟨?_, b.queue c, hholds, fun result => writeable_delivers h hc result,
    fun after w' out hr' hc' hquiet => drained h hc hr' hc' hquiet⟩
  rw [pending_iff h hc, is_empty_iff hholds]
  cases b.queue c <;> simp

/-- Two answers wait, and two writable callbacks hand them over. -/
theorem no_message_is_stuck_sample :
    ∃ w hist w' out, run (step (sample [callFrame 1, callFrame 2])) sampleStart
        [callbackFor 7 .established, receiveFrame 7 (callFrame 1),
          receiveFrame 7 (callFrame 2)] = .ok (w, hist) ∧
      w.mach.pending 7 = true ∧
      run (step (sample [callFrame 1, callFrame 2])) w
        [callbackFor 7 (.server_writeable 9), callbackFor 7 (.server_writeable 9)] =
          .ok (w', out) ∧
      Holds w'.mach.heap (w'.mach.conns 7).messages [] ∧ ¬ w'.mach.pending 7 = true := by
  have htest : runEnds (step (sample [callFrame 1, callFrame 2])) sampleStart
      [callbackFor 7 .established, receiveFrame 7 (callFrame 1), receiveFrame 7 (callFrame 2)]
      (fun w _ => w.phase 7 = .established && !jrpc_queue_is_empty (w.mach.conns 7).messages &&
        runEnds (step (sample [callFrame 1, callFrame 2])) w
          [callbackFor 7 (.server_writeable 9), callbackFor 7 (.server_writeable 9)]
          (fun w' out => decide (w'.phase 7 = .established ∧ sentTo 7 out = [] ∧
            (writtenOn 7 out).length = 2 ∧ w'.mach.pending 7 = false))) = true := by
    decide +kernel
  obtain ⟨w, hist, hrun, htest⟩ := runEnds_spec htest
  simp only [Bool.and_eq_true, decide_eq_true_eq, Bool.not_eq_true'] at htest
  obtain ⟨⟨hc, hwaits⟩, htest⟩ := htest
  obtain ⟨w', out, hrun', htest⟩ := runEnds_spec htest
  obtain ⟨hc', hquiet, hwritten, hidle⟩ := of_decide_eq_true htest
  obtain ⟨hpending, l, _, _, hdrain⟩ := no_message_is_stuck
    (sample [callFrame 1, callFrame 2]) .empty (fun _ => false) () hrun hc
  obtain ⟨hqueue, htake, hiff⟩ := hdrain _ w' out hrun' hc' hquiet
  have hcount : writeables 7 [callbackFor 7 (.server_writeable 9),
      callbackFor 7 (.server_writeable 9)] = 2 := by decide
  rw [hcount] at hqueue htake hiff
  have hlength : l.length ≤ 2 := by
    have hn : ¬ w'.mach.pending ((sample [callFrame 1, callFrame 2]).wsi_of 7) = true := by
      rw [show w'.mach.pending ((sample [callFrame 1, callFrame 2]).wsi_of 7) = false from hidle]
      simp
    rw [hiff] at hn
    omega
  rw [List.drop_eq_nil_of_le hlength] at hqueue
  exact ⟨w, hist, w', out, hrun, hpending.mpr hwaits, hrun', hqueue, by rw [hidle]; simp⟩

end jrpc.service

-- Writes that fail: the message is taken off the queue before it is written and the result of
-- the write is dropped. So a message whose write fails is gone, and later ones follow it. A
-- run leaves no gap just when no write of it fails.
import Jrpc.Calls

open heap runs
open jrpc.json jrpc.message jrpc.queue jrpc.connection jrpc.protocol

namespace jrpc.service

variable {H : Type}

/-! ## Failed writes -/

def acceptedBy (wsi : Wsi) : Event → Option (Addr × Bytes)
  | .write v message data result =>
    if v = wsi ∧ 0 ≤ result then some (message, data) else none
  | _ => none

/-- The messages that `lws_write` accepted on a socket, oldest first. -/
def acceptedOn (wsi : Wsi) (out : List Event) : List (Addr × Bytes) :=
  out.filterMap (acceptedBy wsi)

/-- After a write that failed, the message is at the head of its queue, or the callback
returned something other than 0. -/
def Recovers (env : Env H) (w' : World H) (out : List Event) : Prop :=
  ∀ c message data result, .write (env.wsi_of c) message data result ∈ out → result < 0 →
    (∃ l, Holds w'.mach.heap (w'.mach.conns c).messages ((message, data) :: l)) ∨
      ∃ code, .returned code ∈ out ∧ code ≠ 0

/-- A message waits, and the write that comes next fails. -/
def FailsToWrite (w : World H) : Input H → Prop
  | .callback ⟨_, .server_writeable result, some c, _⟩ =>
    result < 0 ∧ jrpc_queue_is_empty (w.mach.conns c).messages = false
  | _ => False

/-- One step of a run fails to write. -/
def SomeWriteFails (env : Env H) (w : World H) (is : List (Input H)) : Prop :=
  ∃ before i after w1 hist1, is = before ++ i :: after ∧
    run (step env) w before = .ok (w1, hist1) ∧ FailsToWrite w1 i

/-! ## The writes of a step -/

/-- What can be seen of a writable callback. -/
theorem writeable_events {env : Env H} {w w' : World H} {wsi : Wsi} {result : Int32} {c : Conn}
    {has_protocol : Bool} {out : List Event}
    (h : step env w (.callback ⟨wsi, .server_writeable result, some c, has_protocol⟩) =
      .ok (w', out)) :
    ∀ e ∈ out,
      (∃ message data, e = .write wsi message data result ∧
        jrpc_queue_is_empty (w.mach.conns c).messages = false) ∨
      (∃ message, e = .dispose message) ∨ e = .on_writable wsi ∨ e = .returned 0 := by
  obtain ⟨ha, _, rfl⟩ | ⟨d, w1, w2, o, o', hu, hp, he, ht, _, rfl⟩ := step_cases h
  · have hp : has_protocol = true := (deliverable_of_step h).2.2
    rcases ha with ha | ha
    · cases ha
    · rw [hp] at ha
      cases ha
  cases hu
  have hfirst : ∀ e ∈ o, (∃ message data, e = .write wsi message data result ∧
      jrpc_queue_is_empty (w.mach.conns c).messages = false) ∨
        ∃ message, e = .dispose message := by
    unfold handle at he
    dsimp only at he
    split at he
    · cases he
      intro e he
      cases he
    · rename_i hempty
      obtain ⟨⟨mach, o1⟩, hw, he⟩ := bind_eq_ok.mp he
      cases he
      obtain ⟨_, message, data, rfl⟩ := writeFirst_events hw
      intro e he
      rcases List.mem_cons.mp he with rfl | he
      · exact .inl ⟨message, data, rfl, Bool.eq_false_iff.mpr hempty⟩
      · exact .inr ⟨message, List.mem_singleton.mp he⟩
  intro e he
  rcases List.mem_append.mp he with he | he
  · rcases List.mem_append.mp he with he | he
    · rcases hfirst e he with hwrite | hdispose
      · exact .inl hwrite
      · exact .inr (.inl hdispose)
    · exact .inr (.inr (.inl ((requestWritable_events ht).2.2 e he)))
  · exact .inr (.inr (.inr (List.mem_singleton.mp he)))

/-- Only a writable callback writes, and only when a message waits. -/
theorem step_writes {env : Env H} {w w' : World H} {b : outbox.Outbox Conn (Addr × Bytes)}
    (hb : Refines env w b) {i : Input H} {out : List Event} (h : step env w i = .ok (w', out))
    {c : Conn} {message : Addr} {data : Bytes} {result : Int32}
    (he : .write (env.wsi_of c) message data result ∈ out) (hr : result < 0) :
    FailsToWrite w i := by
  obtain ⟨acts, b', hx⟩ := run_explains hb (run_one_ok.mpr h)
  -- the write counts against the writable callbacks of its connection
  have hmem : (message, data) ∈ writtenOn (env.wsi_of c) out :=
    List.mem_filterMap.mpr ⟨_, he, if_pos rfl⟩
  have hle := outbox.delivered_le_drains c acts
  rw [hx.drains, hx.delivered] at hle
  have hpos := Nat.lt_of_lt_of_le (List.length_pos_of_mem hmem) hle
  unfold writeables at hpos
  rw [List.countP_pos_iff] at hpos
  obtain ⟨j, hj, hfor⟩ := hpos
  rw [List.mem_singleton] at hj
  subst hj
  unfold writeableFor at hfor
  split at hfor
  · rename_i wsi result' d has_protocol
    rw [decide_eq_true_eq] at hfor
    subst hfor
    obtain ⟨_, _, heq, hwaits⟩ | ⟨_, heq⟩ | heq | heq := writeable_events h _ he
    · cases heq
      exact ⟨hr, hwaits⟩
    · cases heq
    · cases heq
    · cases heq
  · cases hfor

/-- A message whose write fails is gone from its queue, and the callback returns 0. -/
theorem failed_write_lost {env : Env H} {w w' : World H} {b : outbox.Outbox Conn (Addr × Bytes)}
    (hb : Refines env w b) {i : Input H} {out : List Event} (h : step env w i = .ok (w', out))
    (hf : FailsToWrite w i) : ¬ Recovers env w' out := by
  unfold FailsToWrite at hf
  split at hf
  · rename_i wsi result c has_protocol
    obtain ⟨hr, hwaits⟩ := hf
    have hok := deliverable_of_step h
    obtain ⟨rfl, hc, rfl⟩ : wsi = env.wsi_of c ∧ w.phase c = .established ∧
      has_protocol = true := hok
    have hholds := hb.coupled.holds c
    obtain ⟨w1, out1, hstep, hqueue, hwritten, _⟩ := writeable_delivers hb hc result
    have hsame := h.symm.trans hstep
    cases hsame
    rw [is_empty_iff hholds] at hwaits
    rcases hq : b.queue c with _ | ⟨p, l⟩
    · rw [hq] at hwaits
      cases hwaits
    · rw [hq] at hqueue hwritten hholds
      have hmem : p ∈ writtenOn (env.wsi_of c) out := hwritten ▸ List.mem_cons_self
      obtain ⟨e, he, hby⟩ := List.mem_filterMap.mp hmem
      obtain ⟨message, data, rfl, _⟩ | ⟨_, rfl⟩ | rfl | rfl := writeable_events h e he
      · simp only [writtenBy, if_true, Option.some.injEq] at hby
        subst hby
        intro hrecovers
        rcases hrecovers c message data result he hr with ⟨l', hl'⟩ | ⟨code, hcode, hne⟩
        · -- the message would be in the queue twice
          have hl : l = (message, data) :: l' := hqueue.unique hl'
          have hnodup := hholds.chain.nodup
          rw [hl] at hnodup
          simp at hnodup
        · obtain ⟨_, _, heq, _⟩ | ⟨_, heq⟩ | heq | heq := writeable_events h _ hcode
          · cases heq
          · cases heq
          · cases heq
          · cases heq
            exact hne rfl
      · cases hby
      · cases hby
      · cases hby
  · exact hf.elim

/-! ## The writes of a run -/

theorem run_writes {env : Env H} {w w' : World H} {b : outbox.Outbox Conn (Addr × Bytes)}
    (hb : Refines env w b) {is : List (Input H)} {hist : List Event}
    (h : run (step env) w is = .ok (w', hist)) {c : Conn} {message : Addr} {data : Bytes}
    {result : Int32} (he : .write (env.wsi_of c) message data result ∈ hist)
    (hr : result < 0) : SomeWriteFails env w is := by
  induction is generalizing w b hist with
  | nil =>
    cases h
    cases he
  | cons i is ih =>
    obtain ⟨w1, o, o', hstep, hrest, rfl⟩ := run_cons_ok.mp h
    rcases List.mem_append.mp he with he | he
    · exact ⟨[], i, is, w, [], rfl, rfl, step_writes hb hstep he hr⟩
    · obtain ⟨b1, hb1⟩ := step_refines ⟨b, hb⟩ hstep
      obtain ⟨before, j, after, w2, hist1, rfl, hbefore, hf⟩ := ih hb1 hrest he
      exact ⟨i :: before, j, after, w2, _, rfl,
        run_cons_ok.mpr ⟨w1, o, hist1, hstep, hbefore, rfl⟩, hf⟩

/-- While no write fails, all that is written is accepted. -/
theorem accepted_eq_written {wsi : Wsi} {out : List Event}
    (h : ∀ message data result, .write wsi message data result ∈ out → ¬ result < 0) :
    acceptedOn wsi out = writtenOn wsi out := by
  apply List.filterMap_congr
  intro e he
  cases e with
  | write v message data result =>
    simp only [acceptedBy, writtenBy]
    by_cases hv : v = wsi
    · subst hv
      have hresult : 0 ≤ result := Int32.not_lt.mp (h _ _ _ he)
      rw [if_pos ⟨rfl, hresult⟩, if_pos rfl]
    · rw [if_neg hv, if_neg (fun hboth => hv hboth.1)]
  | _ => rfl

/-- At each time in a run, the messages that were accepted on a connection are the first of
those that were sent to it, and after each write that failed the message is at the head of
its queue or the callback returned something other than 0. This is so just when no write
fails while a message waits. -/
theorem writes_leave_no_gap_iff (env : Env H) (json : JsonStore) (oom : Nat → Bool) (user : H)
    {is : List (Input H)} {w : World H} {hist : List Event}
    (hr : run (step env) (start json oom user) is = .ok (w, hist)) :
    ((∀ before after w1 hist1, is = before ++ after →
          run (step env) (start json oom user) before = .ok (w1, hist1) →
          ∀ c, acceptedOn (env.wsi_of c) hist1 <+: sentTo c hist1) ∧
        ∀ before i after w1 hist1 w2 out, is = before ++ i :: after →
          run (step env) (start json oom user) before = .ok (w1, hist1) →
          step env w1 i = .ok (w2, out) → Recovers env w2 out) ↔
      ¬ SomeWriteFails env (start json oom user) is := by
  have hstart := start_refines env json oom user
  constructor
  · rintro ⟨_, hrecovers⟩ ⟨before, i, after, w1, hist1, rfl, hbefore, hf⟩
    obtain ⟨_, b, hx⟩ := run_explains hstart hbefore
    obtain ⟨w2, out, hstep⟩ := step_of_run hr hbefore
    exact failed_write_lost hx.refines hstep hf
      (hrecovers before i after w1 hist1 w2 out rfl hbefore hstep)
  · intro hn
    constructor
    · rintro before after w1 hist1 rfl hbefore c
      obtain ⟨acts, b, hx⟩ := run_explains hstart hbefore
      rw [accepted_eq_written, ← hx.delivered, ← hx.posted]
      · exact outbox.delivered_prefix rfl hx.replay
      · intro message data result he hneg
        obtain ⟨before', i, after', w2, hist2, rfl, hbefore', hf⟩ :=
          run_writes hstart hbefore he hneg
        exact hn ⟨before', i, after' ++ after, w2, hist2, by simp, hbefore', hf⟩
    · rintro before i after w1 hist1 w2 out rfl hbefore hstep c message data result he hneg
      obtain ⟨_, b, hx⟩ := run_explains hstart hbefore
      exact absurd ⟨before, i, after, w1, hist1, rfl, hbefore,
        step_writes hx.refines hstep he hneg⟩ hn

/-- All writes of a run are accepted. -/
theorem writes_leave_no_gap_iff_sample :
    ∃ w hist, run (step (sample [callFrame 1, callFrame 2])) sampleStart (twoCalls 7) =
        .ok (w, hist) ∧
      (acceptedOn 7 hist).length = 1 ∧ acceptedOn 7 hist <+: sentTo 7 hist := by
  have htest : runEnds (step (sample [callFrame 1, callFrame 2])) sampleStart (twoCalls 7)
      (fun _ hist => (acceptedOn 7 hist).length = 1) = true := by decide +kernel
  obtain ⟨w, hist, hrun, htest⟩ := runEnds_spec htest
  refine ⟨w, hist, hrun, of_decide_eq_true htest, ?_⟩
  have hiff := writes_leave_no_gap_iff (sample [callFrame 1, callFrame 2]) .empty
    (fun _ => false) () hrun
  refine (hiff.mpr ?_).1 (twoCalls 7) [] w hist (List.append_nil _).symm hrun 7
  rintro ⟨before, i, after, w1, hist1, his, _, hf⟩
  have hi : i ∈ twoCalls 7 := his ▸ by simp
  simp only [twoCalls, List.mem_cons, List.not_mem_nil, or_false] at hi
  obtain rfl | rfl | rfl | rfl := hi
  · exact hf
  · exact hf
  · exact hf
  · exact absurd hf.1 (by decide)

/-- Two answers wait. The write of the first one fails, and the second one is accepted. -/
theorem failed_write_leaves_gap :
    ∃ w hist, run (step (sample [callFrame 1, callFrame 2])) sampleStart
        [callbackFor 7 .established, receiveFrame 7 (callFrame 1), receiveFrame 7 (callFrame 2),
          callbackFor 7 (.server_writeable (-1)), callbackFor 7 (.server_writeable 9)] =
          .ok (w, hist) ∧
      ¬ acceptedOn 7 hist <+: sentTo 7 hist := by
  have htest : runEnds (step (sample [callFrame 1, callFrame 2])) sampleStart
      [callbackFor 7 .established, receiveFrame 7 (callFrame 1), receiveFrame 7 (callFrame 2),
        callbackFor 7 (.server_writeable (-1)), callbackFor 7 (.server_writeable 9)]
      (fun _ hist => ¬ acceptedOn 7 hist <+: sentTo 7 hist) = true := by decide +kernel
  obtain ⟨w, hist, hrun, htest⟩ := runEnds_spec htest
  exact ⟨w, hist, hrun, of_decide_eq_true htest⟩

end jrpc.service

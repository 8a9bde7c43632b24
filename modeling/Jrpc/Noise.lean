-- Garbage on a connection: a buffer that is no call changes nothing at all. So a run with such
-- buffers is the run without them, up to requests to write that were made before.
import Jrpc.Calls

open heap runs
open jrpc.json jrpc.message jrpc.queue jrpc.connection jrpc.protocol

namespace jrpc.service

variable {H : Type}

/-- A buffer that does not load, or that is no object with a string `method` and an array or
object `params`. -/
def Malformed (lib : JsonLib) (i : Input H) : Prop :=
  ∃ f, frameIn i = some f ∧ callIn lib f.2 = none

/-- What a client or a handler can notice: handler calls, messages and writes. A request to
write is a flag, and only its value counts. -/
def noticed : Event → Bool
  | .on_writable _ => false
  | .returned _ => false
  | _ => true

/-- A malformed buffer leaves the whole state as it was, and nobody notices it. -/
theorem malformed_step {env : Env H} {w w' : World H} {b : outbox.Outbox Conn (Addr × Bytes)}
    (hw : Refines env w b) {i : Input H} (hi : Malformed env.platform.lib i) {out : List Event}
    (h : step env w i = .ok (w', out)) : w' = w ∧ out.filter noticed = [] := by
  obtain ⟨⟨c, buffer⟩, hf, hcall⟩ := hi
  cases i with
  | user prog => cases hf
  | callback cb =>
    have hok := deliverable_of_step h
    obtain ⟨wsi, reason, user, has_protocol⟩ := cb
    cases reason with
    | receive buffer' =>
      cases user with
      | none => cases hf
      | some d =>
        cases hf
        have hok' := hok
        obtain ⟨hwsi, _, hp⟩ := hok'
        simp only at hwsi hp
        subst hwsi hp
        rw [step_session rfl rfl hok] at h
        have hhandle : handle env.platform env.protocol (env.wsi_of c) (.receive buffer) c w =
            .ok (w, []) := process_no_call env.protocol c hcall w
        simp only [beforeCallback, afterCallback, hhandle, ok_bind,
          requestWritable_still hw c] at h
        cases h
        refine ⟨rfl, ?_⟩
        split <;> simp [noticed]
    | _ => cases user <;> cases hf

/-- Malformed buffers can be deleted from a run, any of them. After each callback that stays,
the whole state is the same, and so are the events of the callback. The run ends in the same
state, and what could be noticed of it is the same. -/
theorem malformed_is_invisible (env : Env H) (json : JsonStore) (oom : Nat → Bool) (user : H)
    {marks : List Bool} {is : List (Input H)} {w : World H} {hist : List Event}
    (hm : List.Forall₂ (fun m i => m = false → Malformed env.platform.lib i) marks is)
    (hr : run (step env) (start json oom user) is = .ok (w, hist)) :
    (∃ tr, trace (step env) (start json oom user) is = .ok tr ∧
        trace (step env) (start json oom user) (keep marks is) = .ok (keep marks tr)) ∧
      ∃ hist', run (step env) (start json oom user) (keep marks is) = .ok (w, hist') ∧
        hist'.filter noticed = hist.filter noticed := by
  have hstart : ∃ b, Refines env (start json oom user) b := ⟨_, start_refines env json oom user⟩
  constructor
  · obtain ⟨tr, ht⟩ := trace_of_run hr
    refine ⟨tr, ht, ?_⟩
    exact trace_keep (fun w => ∃ b, Refines env w b) (Malformed env.platform.lib)
      (fun _ _ _ _ hw h => step_refines hw h)
      (fun _ _ _ _ hw hi h => (malformed_step hw.choose_spec hi h).1) hm hstart ht
  · exact run_keep (fun w => ∃ b, Refines env w b) (Malformed env.platform.lib) noticed
      (fun _ _ _ _ hw h => step_refines hw h)
      (fun _ _ _ _ hw hi h => malformed_step hw.choose_spec hi h) hm hstart hr

/-- Some bytes that are no JSON, between a call and its answer. -/
theorem malformed_is_invisible_sample :
    ∃ w hist hist', run (step (sample [callFrame 1])) sampleStart
        [callbackFor 7 .established, receiveFrame 7 (callFrame 1),
          callbackFor 7 (.receive [123, 0]), callbackFor 7 (.server_writeable 9)] =
          .ok (w, hist) ∧
      run (step (sample [callFrame 1])) sampleStart
        [callbackFor 7 .established, receiveFrame 7 (callFrame 1),
          callbackFor 7 (.server_writeable 9)] = .ok (w, hist') ∧
      hist'.filter noticed = hist.filter noticed := by
  have htest : runEnds (step (sample [callFrame 1])) sampleStart
      [callbackFor 7 .established, receiveFrame 7 (callFrame 1),
        callbackFor 7 (.receive [123, 0]), callbackFor 7 (.server_writeable 9)]
      (fun _ _ => true) = true := by decide +kernel
  obtain ⟨w, hist, hrun, _⟩ := runEnds_spec htest
  have hnone : callIn (sample [callFrame 1]).platform.lib [123, 0] = none :=
    Option.not_isSome_iff_eq_none.mp (by decide)
  have hmarks : List.Forall₂
      (fun m i => m = false → Malformed (sample [callFrame 1]).platform.lib i)
      [true, true, false, true]
      [callbackFor 7 .established, receiveFrame 7 (callFrame 1),
        callbackFor 7 (.receive [123, 0]), callbackFor 7 (.server_writeable 9)] := by
    refine .cons (by simp) (.cons (by simp) (.cons (fun _ => ?_) (.cons (by simp) .nil)))
    exact ⟨(7, [123, 0]), rfl, hnone⟩
  obtain ⟨_, hist', hrun', hnoticed⟩ := malformed_is_invisible (sample [callFrame 1]) .empty
    (fun _ => false) () hmarks hrun
  exact ⟨w, hist, hist', hrun, hrun', hnoticed⟩

end jrpc.service

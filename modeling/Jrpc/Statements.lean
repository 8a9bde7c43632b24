-- Code of handlers, statement by statement. A statement takes the code that comes after it,
-- so a run of a statement leads from one state to the state in which this code goes on. Here
-- are the rules for one statement after another, for a walk over a list, and for a call that
-- sends.
import Jrpc.Balance
import Jrpc.RoundTrip
import Jrpc.Values

open heap runs
open jrpc.json jrpc.message jrpc.queue jrpc.connection jrpc.protocol

namespace jrpc.service

variable {H α : Type}

/-! ## Rules -/

/-- The code runs up to the second code, with these events. -/
def Leads (p : Platform) (prog : UserProg H) (w : World H) (rest : UserProg H) (w' : World H)
    (out : List Event) : Prop :=
  exec p prog w = do
    let (w2, o) ← exec p rest w'
    .ok (w2, out ++ o)

theorem Leads.refl (p : Platform) (prog : UserProg H) (w : World H) : Leads p prog w prog w [] := by
  unfold Leads
  rcases exec p prog w with e | ⟨w', out⟩
  · rfl
  · rfl

theorem Leads.trans {p : Platform} {prog prog1 prog2 : UserProg H} {w w1 w2 : World H}
    {o o' : List Event} (h : Leads p prog w prog1 w1 o) (h' : Leads p prog1 w1 prog2 w2 o') :
    Leads p prog w prog2 w2 (o ++ o') := by
  unfold Leads at h h' ⊢
  rw [h, h']
  rcases exec p prog2 w2 with e | ⟨w3, out⟩
  · rfl
  · simp

/-- Code that runs up to its end. -/
theorem Leads.done {p : Platform} {prog : UserProg H} {w w' : World H} {out : List Event}
    (h : Leads p prog w .ret w' out) : exec p prog w = .ok (w', out) := by
  unfold Leads at h
  rw [h]
  simp [exec]

/-- A statement for each element of a list. -/
def forEach (items : List α) (body : α → UserProg H → UserProg H) (rest : UserProg H) :
    UserProg H :=
  items.foldr body rest

/-- A walk keeps what each of its statements keeps, and its events are those of its statements,
one after another. -/
theorem forEach_leads {p : Platform} {body : α → UserProg H → UserProg H} {I : World H → Prop}
    {D : α → List Event → Prop} {items : List α} (rest : UserProg H)
    (hbody : ∀ x ∈ items, ∀ k w, I w → ∃ w' out, Leads p (body x k) w k w' out ∧ I w' ∧ D x out)
    {w : World H} (hw : I w) :
    ∃ w' outs, Leads p (forEach items body rest) w rest w' outs.flatten ∧ I w' ∧
      List.Forall₂ D items outs := by
  induction items generalizing w with
  | nil => exact ⟨w, [], Leads.refl p rest w, hw, .nil⟩
  | cons x items ih =>
    obtain ⟨w1, o, hfirst, hw1, hx⟩ :=
      hbody x List.mem_cons_self (forEach items body rest) w hw
    obtain ⟨w2, outs, hothers, hw2, hall⟩ :=
      ih (fun y hy => hbody y (List.mem_cons_of_mem x hy)) hw1
    exact ⟨w2, o :: outs, hfirst.trans hothers, hw2, .cons hx hall⟩

/-! ## A call that sends -/

/-- The events of one call that sends to this connection. When `full` holds, the message was
created, and it is this frame. -/
def Says (full : Prop) (c : Conn) (frame : Json) (out : List Event) : Prop :=
  ∃ object message rest, out = .send c object message :: rest ∧
    (∀ e ∈ rest, ∃ wsi, e = .on_writable wsi) ∧
    (full → object = some frame ∧ message.isSome)

/-- A call that sends to an open connection is done, and gives up its argument and nothing
else. -/
theorem send_leads {env : Env H} {w : World H} {b : outbox.Outbox Conn (Addr × Bytes)}
    (h : Refines env w b) {c : Conn} (hc : w.phase c = .established) {call : Send}
    (hvalid : Send.ValidIn w.mach.json call) (k : UserProg H) {frame : Json} {full : Prop}
    (hplenty : full → Plenty w.mach) (htext : full → textOk env.platform.lib call = true)
    (hframe : full → frameOf w.mach.json call = some frame) :
    ∃ mach out b', Leads env.platform (.send c call k) w k { w with mach } out ∧
      Refines env { w with mach } b' ∧
      mach.json = json_decref (argumentOf call) w.mach.json ∧
      mach.oom = later (1 + call.allocations) w.mach.oom ∧ Says full c frame out := by
  obtain ⟨mach, acts, b', hrun, hx⟩ := send_explains h hc call
  obtain ⟨mach', hrun', hsent⟩ := Send.run_spec env.platform call h.coupled (h.socket c hc)
  have hsame : mach' = mach := by
    rw [hrun] at hrun'
    cases hrun'
    rfl
  subst hsame
  refine ⟨mach', sendEvents env.platform c (call.object env.platform w.mach) (env.wsi_of c)
    (call.ready env.platform w.mach), b', ?_, hx.refines, ?_, ?_, ?_⟩
  · unfold Leads
    rw [exec, if_pos ⟨hc, hvalid⟩, hrun]
    rfl
  · rw [hsent.json, object_release hvalid]
  · exact (Send.run_events hrun).1
  · obtain ⟨_, message, rest, hout, hmessage, hrest⟩ := Send.run_events hrun
    refine ⟨_, message, rest, hout, hrest, fun hfull => ⟨?_, hmessage (hplenty hfull _)⟩⟩
    exact object_reads hvalid (htext hfull) (fun n _ => hplenty hfull n) (hframe hfull)

end jrpc.service

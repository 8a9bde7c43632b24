-- What becomes of the memory of messages: each message that was created is disposed once,
-- no message is touched after that, and no message is in two queues. A session that is not
-- established has no messages, so no callback of it asks to write.
import Mathlib.Data.List.Nodup
import Jrpc.Delivery
import Jrpc.Handlers

open heap runs outbox
open jrpc.json jrpc.message jrpc.queue jrpc.connection jrpc.protocol

namespace jrpc.service

variable {H : Type}

/-! ## The accounts of a run -/

theorem accounts_start (json : JsonStore) (oom : Nat → Bool) (user : H) :
    Accounts (start json oom user).mach.heap [] := by
  refine ⟨rfl, fun a => ?_⟩
  simp [start, disposed, Arena.empty]

theorem run_accounts {env : Env H} {json : JsonStore} {oom : Nat → Bool} {user : H}
    {is : List (Input H)} {w : World H} {hist : List Event}
    (hr : run (step env) (start json oom user) is = .ok (w, hist)) :
    Accounts w.mach.heap hist := by
  obtain ⟨_, b, hx⟩ := run_explains (start_refines env json oom user) hr
  have h := hx.balanced [] (accounts_start json oom user)
  rwa [List.nil_append] at h

theorem eq_of_filterMap_nodup {α β : Type} {f : α → Option β} {l : List α}
    (h : (l.filterMap f).Nodup) {x y : α} {b : β} (hx : x ∈ l) (hy : y ∈ l) (hfx : f x = some b)
    (hfy : f y = some b) : x = y := by
  obtain ⟨s, t, rfl⟩ := List.append_of_mem hx
  rw [List.filterMap_append, List.filterMap_cons_some hfx, List.nodup_middle, List.nodup_cons,
    List.mem_append] at h
  by_contra hne
  apply h.1
  rcases List.mem_append.mp hy with hy | hy
  · exact .inl (List.mem_filterMap.mpr ⟨y, hy, hfy⟩)
  · exact .inr (List.mem_filterMap.mpr ⟨y, (List.mem_cons.mp hy).resolve_left (Ne.symm hne), hfy⟩)

/-- A message is sent once. -/
theorem sent_once {env : Env H} {json : JsonStore} {oom : Nat → Bool} {user : H}
    {is : List (Input H)} {w : World H} {hist : List Event}
    (hr : run (step env) (start json oom user) is = .ok (w, hist)) {c d : Conn}
    {object object' : Option Json} {message : Addr × Bytes}
    (he : .send c object (some message) ∈ hist) (he' : .send d object' (some message) ∈ hist) :
    c = d ∧ object = object' := by
  have hnodup : (hist.filterMap createdBy).Nodup := by
    rw [show hist.filterMap createdBy = created hist from rfl, (run_accounts hr).births]
    exact List.nodup_range
  have heq := eq_of_filterMap_nodup hnodup he he' rfl rfl
  cases heq
  exact ⟨rfl, rfl⟩

/-- A live message is in the queue of an established session. -/
theorem Refines.no_live {env : Env H} {w : World H} {b : Outbox Conn (Addr × Bytes)}
    (h : Refines env w b) (hclosed : ∀ c, w.phase c ≠ .established) (a : Addr) :
    ¬ w.mach.heap.Live a := by
  intro ha
  obtain ⟨c, hc⟩ := h.coupled.live a ha
  rw [(h.sound c).quiet (h.phase ▸ hclosed c)] at hc
  cases hc

/-! ## Sessions that are not established -/

/-- The end of a callback asks for nothing when the session is not established then: it
finds the empty queue that the zeros of a new session make, or the one that the cleanup
left behind. -/
theorem requestWritable_quiet {env : Env H} {w w' : World H} {b : Outbox Conn (Addr × Bytes)}
    (h : Refines env w b) {cb : Callback} {c : Conn} {out : List Event}
    (hd : Deliverable env w cb) (hu : cb.user = some c)
    (hh : handle env.platform env.protocol cb.wsi cb.reason c (beforeCallback cb w) =
      .ok (w', out))
    (hc : (afterCallback cb w').phase c ≠ .established) :
    requestWritable cb.wsi c w' = .ok (w', []) := by
  obtain ⟨wsi, reason, user, has_protocol⟩ := cb
  simp only at hu
  subst hu
  have hphase := (handle_ran hh).1
  -- a reason that leaves the state as it is, and the session as it was
  have hstill : w' = w → w.phase c ≠ .established →
      requestWritable wsi c w' = .ok (w', []) := by
    rintro rfl hn
    have hholds := h.coupled.holds c
    rw [(h.sound c).quiet (h.phase ▸ hn)] at hholds
    rw [requestWritable_eq hholds, List.isEmpty_nil, if_pos rfl]
  cases reason with
  | protocol_init =>
    cases hh
    exact hstill rfl hc
  | established =>
    refine absurd ?_ hc
    simp only [afterCallback, hphase, beforeCallback, Function.update_self]
  | closed =>
    obtain ⟨⟨w1, o⟩, he, hh⟩ := bind_eq_ok.mp hh
    obtain ⟨⟨mach, o'⟩, hclean, hh⟩ := bind_eq_ok.mp hh
    cases hh
    unfold jrpc_connection_cleanup jrpc_queue_cleanup at hclean
    obtain ⟨⟨heap, q, disposed⟩, hclean', hclean⟩ := bind_eq_ok.mp hclean
    obtain ⟨⟨heap', disposed'⟩, _, hclean'⟩ := bind_eq_ok.mp hclean'
    cases hclean'
    cases hclean
    unfold requestWritable
    rw [setQueue_messages_self]
    rfl
  | receive buffer =>
    refine absurd ?_ hc
    simp only [afterCallback, hphase, beforeCallback]
    exact hd.2.1
  | server_writeable result =>
    refine absurd ?_ hc
    simp only [afterCallback, hphase, beforeCallback]
    exact hd.2.1
  | raw_rx_file =>
    cases hh
    exact hstill rfl hc
  | other reason =>
    cases hh
    exact hstill rfl hc

/-- A run ends early only by a broken promise of the code around the server, and never
because a message was used after it was disposed. Each message is disposed at most once, and
just once when all sessions are over. No message is in two queues, or twice in one. The end
of a callback asks to write for no session that is not established. -/
theorem messages_are_disposed_once (env : Env H) (json : JsonStore) (oom : Nat → Bool)
    (user : H) (is : List (Input H)) :
    (∀ e, run (step env) (start json oom user) is = .error e → e = .misuse) ∧
      ∀ w hist, run (step env) (start json oom user) is = .ok (w, hist) →
        (created hist).Nodup ∧ (∀ a, (disposed hist).count a ≤ 1) ∧
        (∀ a ∈ disposed hist, a ∈ created hist) ∧
        ((∀ c, w.phase c ≠ .established) → ∀ a ∈ created hist, (disposed hist).count a = 1) ∧
        (∀ c l, Holds w.mach.heap (w.mach.conns c).messages l → (l.map (·.1)).Nodup ∧
          ∀ d l', Holds w.mach.heap (w.mach.conns d).messages l' → c ≠ d →
            ∀ p ∈ l, ∀ q ∈ l', p.1 ≠ q.1) ∧
        ∀ cb c w' out, Deliverable env w cb → cb.user = some c →
          handle env.platform env.protocol cb.wsi cb.reason c (beforeCallback cb w) =
            .ok (w', out) →
          (afterCallback cb w').phase c ≠ .established →
          requestWritable cb.wsi c w' = .ok (w', []) := by
  constructor
  · intro e hr
    by_contra he
    exact run_safe (start_refines env json oom user) he hr
  · intro w hist hr
    obtain ⟨_, b, hx⟩ := run_explains (start_refines env json oom user) hr
    have h := hx.refines
    have haccounts := run_accounts hr
    refine ⟨?_, haccounts.count_le_one, fun a ha => haccounts.created_of_disposed ha,
      fun hclosed a ha => haccounts.all_disposed (h.no_live hclosed) ha, fun c l hl => ?_,
      fun cb c w' out hd hu hh hc => requestWritable_quiet h hd hu hh hc⟩
    · rw [haccounts.births]
      exact List.nodup_range
    · refine ⟨hl.chain.nodup, fun d l' hl' hcd p hp q hq he => ?_⟩
      rw [hl.unique (h.coupled.holds c)] at hp
      rw [hl'.unique (h.coupled.holds d)] at hq
      exact hcd (h.coupled.apart c d p q hp hq he)

/-- Two answers were created. One was written, and the other one was still in the queue when
the session was closed. -/
theorem messages_are_disposed_once_sample :
    ∃ w hist, run (step (sample [callFrame 1, callFrame 2])) sampleStart
        (twoCalls 7 ++ [callbackFor 7 .closed, callbackFor 7 (.other 30)]) = .ok (w, hist) ∧
      created hist = [0, 1] ∧ ∀ a ∈ created hist, (disposed hist).count a = 1 := by
  have htest : runEnds (step (sample [callFrame 1, callFrame 2])) sampleStart
      (twoCalls 7 ++ [callbackFor 7 .closed, callbackFor 7 (.other 30)])
      (fun w hist => decide (w.phase 7 = .closed ∧ created hist = [0, 1])) = true := by
    decide +kernel
  obtain ⟨w, hist, hrun, htest⟩ := runEnds_spec htest
  obtain ⟨hclosed, hcreated⟩ := of_decide_eq_true htest
  obtain ⟨_, _, _, honce, _⟩ := (messages_are_disposed_once (sample [callFrame 1, callFrame 2])
    .empty (fun _ => false) () _).2 w hist hrun
  refine ⟨w, hist, hrun, hcreated, honce fun c => ?_⟩
  by_cases hc : c = 7
  · rw [hc, hclosed]
    decide
  · have hother := run_phase (d := c) hrun (by
      intro cb hcb
      simp [twoCalls, callbackFor, receiveFrame] at hcb
      rcases hcb with rfl | rfl | rfl | rfl | rfl | rfl <;> simpa using Ne.symm hc)
    rw [hother, show sampleStart.phase c = .fresh from rfl]
    decide

end jrpc.service

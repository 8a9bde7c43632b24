-- Each callback keeps the relation between the server and the outboxes, and what happened in
-- it is explained by acts of the outboxes. So every run of the server is a run of the
-- outboxes, and it ends early only when the code around the server breaks a promise.
import Jrpc.Refinement

open heap runs outbox
open jrpc.json jrpc.message jrpc.queue jrpc.connection jrpc.protocol

namespace jrpc.service

variable {H : Type}

/-! ## The end of a callback -/

/-- A queue that is not empty asks to be written. -/
theorem requestWritable_eq {w : World H} {c : Conn} {l : List (Addr × Bytes)}
    (h : Holds w.mach.heap (w.mach.conns c).messages l) (wsi : Wsi) :
    requestWritable wsi c w =
      if l.isEmpty then .ok (w, [])
      else .ok ({ w with mach :=
        { w.mach with pending := Function.update w.mach.pending wsi true } },
        [.on_writable wsi]) := by
  unfold requestWritable lws_callback_on_writable
  rw [is_empty_iff h]
  rfl

/-- At the end of a callback there is nothing to ask for that was not asked for before. -/
theorem requestWritable_still {env : Env H} {w : World H} {b : Outbox Conn (Addr × Bytes)}
    (h : Refines env w b) (c : Conn) :
    requestWritable (env.wsi_of c) c w =
      .ok (w, if (b.queue c).isEmpty then [] else [.on_writable (env.wsi_of c)]) := by
  rw [requestWritable_eq (h.coupled.holds c)]
  split
  · rfl
  · rename_i hne
    have hphase : b.phase c = .established := by
      by_contra hn
      rw [(h.sound c).quiet hn] at hne
      exact hne rfl
    have harmed : w.mach.pending (env.wsi_of c) = true := by
      rw [h.pending c (by rw [h.phase, hphase]), (h.sound c).armed hphase]
      simpa using hne
    rw [← harmed, Function.update_eq_self]

theorem plain_request (wsi : Wsi) (empty : Bool) :
    ∀ e ∈ (if empty then [] else [.on_writable wsi]) ++ [.returned 0], plain e = true := by
  cases empty <;> simp [plain]

/-! ## The writable callback -/

/-- The first message of the queue is written and disposed, and the queue holds the rest. -/
theorem writeFirst_spec {m : Machine} {box : Conn → List (Addr × Bytes)} (h : Coupled m box)
    {c : Conn} {p : Addr × Bytes} {l : List (Addr × Bytes)} (hl : box c = p :: l) (wsi : Wsi)
    (result : Int32) :
    ∃ heap queue, writeFirst wsi result c m =
        .ok (m.setQueue c heap queue, [.write wsi p.1 p.2 result, .dispose p.1]) ∧
      Coupled (m.setQueue c heap queue) (Function.update box c l) ∧
      Balanced m.heap heap [.write wsi p.1 p.2 result, .dispose p.1] := by
  have hc := h.holds c
  rw [hl] at hc
  obtain ⟨queue, hdeq, hrest⟩ := dequeue_cons hc
  have hlive := hc.live List.mem_cons_self
  have hbytes := hc.bytes p List.mem_cons_self
  have hp : p ∈ box c := hl ▸ List.mem_cons_self
  have hpl : p.1 ∉ l.map (·.1) := (List.nodup_cons.mp hc.chain.nodup).1
  have hf := freed_one m.heap p.1
  rw [Option.map_eq_some_iff] at hbytes
  obtain ⟨cell, hcell, hb⟩ := hbytes
  refine ⟨m.heap.free p.1, queue, ?_, ?_, ?_⟩
  · unfold writeFirst
    rw [hdeq, ok_bind]
    simp only [hcell, dispose_live hlive, ok_bind, hb]
  · apply coupled_setQueue h
    · apply hrest.congr
      intro q hq
      apply hf.same
      rw [List.mem_singleton]
      exact fun he => hpl (he ▸ List.mem_map_of_mem hq)
    · intro d hd q hq
      apply hf.same
      rw [List.mem_singleton]
      exact fun he => hd (h.apart d c q p hq hp he)
    · intro d hd q hq q' hq' he
      exact hd (h.apart d c q' q hq' (hl ▸ List.mem_cons_of_mem p hq) he.symm)
    · intro a ha
      obtain ⟨x, hx⟩ := Arena.live_iff.mp ha
      obtain ⟨hap, hax⟩ := Arena.free_cells_some hx
      obtain ⟨d, hd⟩ := h.live a (Arena.live_iff.mpr ⟨x, hax⟩)
      by_cases hdc : d = c
      · left
        subst d
        rw [hl, List.map_cons, List.mem_cons] at hd
        exact hd.resolve_left hap
      · exact .inr ⟨d, hdc, hd⟩
  · apply balanced_free hf (by simp)
    · intro a ha
      rw [List.mem_singleton.mp ha]
      exact hlive
    · rfl
    · rfl

/-! ## One callback -/

theorem Keeps.of_aside {env : Env H} {is : List (Input H)} {heap : MessageHeap}
    {b : Outbox Conn (Addr × Bytes)} {r : Except Fault (World H × List Event)}
    (h : Keeps env [] heap b r) (his : ∀ c, writeables c is = 0) : Keeps env is heap b r := by
  rcases h with he | ⟨w', out, acts, b', he, hx⟩
  · exact .inl he
  · exact .inr ⟨w', out, acts, b', he,
      { hx with drains := fun c => (hx.drains c).trans (his c).symm }⟩

theorem plain_handleNull (protocol : JrpcProtocol H) (reason : Reason) :
    ∀ e ∈ handleNull protocol reason, plain e = true := by
  cases reason <;> simp [handleNull, plain]

theorem aside_keeps {env : Env H} {w : World H} {b : Outbox Conn (Addr × Bytes)}
    (h : Refines env w b) {cb : Callback} (hd : Deliverable env w cb)
    (ha : cb.user = none ∨ cb.has_protocol = false) :
    Keeps env [.callback cb] w.mach.heap b (step env w (.callback cb)) := by
  rw [step_aside hd ha]
  apply Keeps.of_aside
  · refine .inr ⟨w, _, [], b, rfl, h.still rfl ?_⟩
    intro e he
    rcases List.mem_append.mp he with he | he
    · split at he
      · exact plain_handleNull _ _ e he
      · cases he
    · rw [List.mem_singleton.mp he]
      rfl
  · intro c
    obtain ⟨wsi, reason, user, has_protocol⟩ := cb
    rcases ha with rfl | rfl
    · cases reason <;> rfl
    · cases user with
      | none => cases reason <;> rfl
      | some d => cases reason <;> first | rfl | simp [Deliverable] at hd

/-- A callback that changes no phase and no flag by itself. -/
theorem plain_reason_keeps {env : Env H} {w : World H} {b : Outbox Conn (Addr × Bytes)}
    {cb : Callback} {c : Conn} (hu : cb.user = some c) (hp : cb.has_protocol = true)
    (hd : Deliverable env w cb) (hwsi : cb.wsi = env.wsi_of c)
    (hbefore : beforeCallback cb w = w) (hafter : ∀ w : World H, afterCallback cb w = w)
    (hdrain : ∀ d, writeables d [(.callback cb : Input H)] = 0)
    (hhandle : Keeps env [] w.mach.heap b
      (handle env.platform env.protocol cb.wsi cb.reason c w)) :
    Keeps env [.callback cb] w.mach.heap b (step env w (.callback cb)) := by
  rw [step_session hu hp hd, hbefore, hwsi]
  rw [hwsi] at hhandle
  apply Keeps.of_aside _ hdrain
  rcases hhandle with he | ⟨w1, out, acts, b1, he, hx⟩
  · rw [he]
    exact .inl rfl
  · rw [he, ok_bind]
    dsimp only
    rw [requestWritable_still hx.refines c, ok_bind, hafter, List.append_assoc]
    exact .inr ⟨w1, _, acts, b1, rfl, hx.append_plain (plain_request _ _)⟩

/-- A session begins with an empty queue and no request. -/
theorem establish_explains {env : Env H} {w : World H} {b : Outbox Conn (Addr × Bytes)}
    (h : Refines env w b) {c : Conn} (hc : w.phase c = .fresh) (server : Nat) :
    Explains env [] w.mach.heap b
      { w with
        mach := jrpc_connection_init c server (env.wsi_of c)
          { w.mach with pending := Function.update w.mach.pending (env.wsi_of c) false }
        phase := Function.update w.phase c .established }
      [] [.establish c]
      { phase := Function.update b.phase c .established
        queue := Function.update b.queue c []
        armed := Function.update b.armed c false } := by
  have hnext : Next b (.establish c) _ := Next.establish (h.phase ▸ hc)
  have hnil : b.queue c = [] := (h.sound c).quiet (by rw [← h.phase, hc]; simp)
  have hinit : (w.mach.conns c).messages = jrpc_queue_init := by
    apply Holds.nil_iff.mp
    rw [← hnil]
    exact h.coupled.holds c
  refine ⟨.single hnext, ⟨?_, ?_, ?_, ?_, hnext.sound h.sound⟩, fun d => rfl, fun d => rfl,
    fun d => rfl, compact_plain (by simp) _, Balanced.refl _ rfl rfl⟩
  · have hsame : Function.update b.queue c [] = b.queue := by
      rw [← hnil, Function.update_eq_self]
    rw [hsame]
    refine h.coupled.congr rfl fun d => ?_
    by_cases hd : d = c
    · subst d
      simp [jrpc_connection_init, hinit]
    · simp [jrpc_connection_init, Function.update_of_ne hd]
  · rw [h.phase]
  · intro d hd
    by_cases hdc : d = c
    · subst d
      simp [jrpc_connection_init]
    · simp only [Function.update_of_ne hdc, jrpc_connection_init] at hd ⊢
      exact h.socket d hd
  · intro d hd
    by_cases hdc : d = c
    · subst d
      simp [jrpc_connection_init]
    · have hne : env.wsi_of d ≠ env.wsi_of c := fun he => hdc (env.wsi_injective he)
      simp only [Function.update_of_ne hdc, jrpc_connection_init, Function.update_of_ne hne] at hd ⊢
      exact h.pending d hd

theorem established_keeps {env : Env H} {w : World H} {b : Outbox Conn (Addr × Bytes)}
    (h : Refines env w b) {cb : Callback} {c : Conn} (hu : cb.user = some c)
    (hr : cb.reason = .established) (hd : Deliverable env w cb) :
    Keeps env [.callback cb] w.mach.heap b (step env w (.callback cb)) := by
  obtain ⟨wsi, reason, user, has_protocol⟩ := cb
  simp only at hu hr
  subst hu hr
  have hd' := hd
  obtain ⟨rfl, hc, rfl⟩ := hd'
  rw [step_session rfl rfl hd]
  apply Keeps.of_aside _ (fun _ => rfl)
  have hx := establish_explains h hc env.protocol.server
  simp only [handle, beforeCallback, afterCallback]
  rcases callHandler_keeps env (.onconnected c) rfl (env.protocol.onconnected c)
    hx.refines with he | ⟨w1, out, acts, b1, he, hx1⟩
  · rw [he]
    exact .inl rfl
  · rw [he, ok_bind]
    dsimp only
    rw [requestWritable_still hx1.refines c, ok_bind, List.append_assoc]
    exact .inr ⟨w1, _, _, b1, rfl, (hx.append hx1).append_plain (plain_request _ _)⟩

/-- A session ends with an empty queue, and asks for nothing more. -/
theorem close_explains {env : Env H} {w : World H} {b : Outbox Conn (Addr × Bytes)}
    (h : Refines env w b) {c : Conn} (hc : w.phase c = .established) :
    ∃ mach, jrpc_connection_cleanup c w.mach =
        .ok (mach, ((b.queue c).map (·.1)).map .dispose) ∧
      Holds mach.heap (mach.conns c).messages [] ∧
      Explains env [] w.mach.heap b
        { w with mach, phase := Function.update w.phase c .closed }
        (((b.queue c).map (·.1)).map .dispose) [.close c]
        { b with
          phase := Function.update b.phase c .closed
          queue := Function.update b.queue c [] } := by
  have hnext : Next b (.close c) _ := Next.close (h.phase ▸ hc)
  obtain ⟨heap', hclean, hcoupled, hbal⟩ := cleanup_connection_spec (c := c) h.coupled
  have hempty := hcoupled.holds c
  rw [Function.update_self] at hempty
  refine ⟨_, hclean, hempty, .single hnext, ⟨hcoupled, ?_, ?_, ?_, hnext.sound h.sound⟩,
    fun d => ?_, fun d => ?_, fun d => rfl, ?_, hbal⟩
  · rw [h.phase]
  · intro d hd
    by_cases hdc : d = c
    · subst d
      simp at hd
    · rw [setQueue_wsi]
      exact h.socket d (by simpa [Function.update_of_ne hdc] using hd)
  · intro d hd
    by_cases hdc : d = c
    · subst d
      simp at hd
    · exact h.pending d (by simpa [Function.update_of_ne hdc] using hd)
  · simp [sentTo, postedBy, List.filterMap_map, Function.comp_def, sentBy]
  · simp [writtenOn, deliveredBy, List.filterMap_map, Function.comp_def, writtenBy]
  · intro d object message bytes he
    simp at he

theorem closed_keeps {env : Env H} {w : World H} {b : Outbox Conn (Addr × Bytes)}
    (h : Refines env w b) {cb : Callback} {c : Conn} (hu : cb.user = some c)
    (hr : cb.reason = .closed) (hd : Deliverable env w cb) :
    Keeps env [.callback cb] w.mach.heap b (step env w (.callback cb)) := by
  obtain ⟨wsi, reason, user, has_protocol⟩ := cb
  simp only at hu hr
  subst hu hr
  have hd' := hd
  obtain ⟨rfl, hc, rfl⟩ := hd'
  rw [step_session rfl rfl hd]
  apply Keeps.of_aside _ (fun _ => rfl)
  simp only [handle, beforeCallback, afterCallback]
  rcases callHandler_keeps env (.ondisconnected c) rfl (env.protocol.ondisconnected c) h
    with he | ⟨w1, out, acts, b1, he, hx⟩
  · rw [he]
    exact .inl rfl
  · have hc1 : w1.phase c = .established := by rw [callHandler_phase he, hc]
    obtain ⟨mach, hclean, hempty, hx1⟩ := close_explains hx.refines hc1
    rw [he, ok_bind]
    simp only [hclean, ok_bind]
    rw [requestWritable_eq (w := { w1 with mach }) hempty]
    simp only [List.isEmpty_nil, if_true, ok_bind]
    have hall := (hx.append hx1).returned
    rw [List.append_nil]
    exact .inr ⟨_, _, _, _, rfl, hall⟩

/-- A writable callback finds an empty queue: nothing happens. -/
theorem idle_explains {env : Env H} {w : World H} {b : Outbox Conn (Addr × Bytes)}
    (h : Refines env w b) {c : Conn} (hc : w.phase c = .established) (hq : b.queue c = [])
    (cb : Callback) (hcb : ∀ d, writeables d [(.callback cb : Input H)] = if c = d then 1 else 0) :
    Explains env [.callback cb] w.mach.heap b
      { w with mach :=
        { w.mach with pending := Function.update w.mach.pending (env.wsi_of c) false } }
      [] [.idle c] { b with armed := Function.update b.armed c false } := by
  have hnext : Next b (.idle c) _ := Next.idle (h.phase ▸ hc) hq
  refine ⟨.single hnext, ⟨h.coupled.congr rfl (fun _ => rfl), h.phase, h.socket, ?_,
    hnext.sound h.sound⟩, fun d => rfl, fun d => rfl, fun d => ?_, compact_plain (by simp) _,
    Balanced.refl _ rfl rfl⟩
  · intro d hd
    by_cases hdc : d = c
    · subst d
      simp
    · have hne : env.wsi_of d ≠ env.wsi_of c := fun he => hdc (env.wsi_injective he)
      simp only [Function.update_of_ne hdc, Function.update_of_ne hne]
      exact h.pending d hd
  · rw [hcb]
    simp [drainsBy]

/-- A writable callback takes the first message, and asks for another one when messages are
left. -/
theorem deliver_explains {env : Env H} {w : World H} {b : Outbox Conn (Addr × Bytes)}
    (h : Refines env w b) {c : Conn} (hc : w.phase c = .established) {p : Addr × Bytes}
    {l : List (Addr × Bytes)} (hq : b.queue c = p :: l) (result : Int32) (cb : Callback)
    (hcb : ∀ d, writeables d [(.callback cb : Input H)] = if c = d then 1 else 0)
    {heap : MessageHeap} {queue : JrpcQueue}
    (hcoupled : Coupled (w.mach.setQueue c heap queue) (Function.update b.queue c l))
    (hbal : Balanced w.mach.heap heap [.write (env.wsi_of c) p.1 p.2 result, .dispose p.1]) :
    Explains env [.callback cb] w.mach.heap b
      { w with mach :=
        { w.mach.setQueue c heap queue with
          pending := Function.update w.mach.pending (env.wsi_of c) !l.isEmpty } }
      [.write (env.wsi_of c) p.1 p.2 result, .dispose p.1] [.deliver c p]
      { b with
        queue := Function.update b.queue c l
        armed := Function.update b.armed c !l.isEmpty } := by
  have hnext : Next b (.deliver c p) _ := Next.deliver (h.phase ▸ hc) hq
  refine ⟨.single hnext, ⟨hcoupled.congr rfl (fun _ => rfl), h.phase, ?_, ?_,
    hnext.sound h.sound⟩, fun d => rfl, fun d => ?_, fun d => ?_, ?_, hbal⟩
  · intro d hd
    simp only [setQueue_wsi]
    exact h.socket d hd
  · intro d hd
    by_cases hdc : d = c
    · subst d
      simp
    · have hne : env.wsi_of d ≠ env.wsi_of c := fun he => hdc (env.wsi_injective he)
      simp only [Function.update_of_ne hdc, Function.update_of_ne hne]
      exact h.pending d hd
  · simp only [delivered_cons, delivered_nil, deliveredBy, writtenOn, List.filterMap_cons,
      writtenBy, List.filterMap_nil]
    by_cases hcd : c = d
    · subst d
      simp
    · have hne : env.wsi_of c ≠ env.wsi_of d := fun he => hcd (env.wsi_injective he)
      simp [hcd, hne]
  · rw [hcb]
    simp [drainsBy]
  · intro d object message bytes he
    simp at he

/-- A writable callback never fails, and it sends nothing. -/
theorem writeable_explains {env : Env H} {w : World H} {b : Outbox Conn (Addr × Bytes)}
    (h : Refines env w b) {cb : Callback} {c : Conn} {result : Int32} (hu : cb.user = some c)
    (hr : cb.reason = .server_writeable result) (hd : Deliverable env w cb) :
    ∃ w' out acts b', step env w (.callback cb) = .ok (w', out) ∧
      Explains env [.callback cb] w.mach.heap b w' out acts b' ∧ w'.phase = w.phase ∧
      ∀ d, posted d acts = [] := by
  obtain ⟨wsi, reason, user, has_protocol⟩ := cb
  simp only at hu hr
  subst hu hr
  have hd' := hd
  obtain ⟨rfl, hc, rfl⟩ := hd'
  rw [step_session rfl rfl hd]
  have hcb : ∀ d, writeables d
      [(.callback ⟨env.wsi_of c, .server_writeable result, some c, true⟩ : Input H)] =
        if c = d then 1 else 0 := by
    intro d
    simp [writeables, List.countP_cons, writeableFor]
  have hbefore : beforeCallback ⟨env.wsi_of c, .server_writeable result, some c, true⟩ w =
      { w with mach :=
        { w.mach with pending := Function.update w.mach.pending (env.wsi_of c) false } } := rfl
  generalize hmach : ({ w.mach with
    pending := Function.update w.mach.pending (env.wsi_of c) false } : Machine) = mach at hbefore
  have hcoupled : Coupled mach b.queue := by
    rw [← hmach]
    exact h.coupled.congr rfl (fun _ => rfl)
  have hholds := hcoupled.holds c
  rw [hbefore]
  unfold handle
  dsimp only
  rw [is_empty_iff hholds]
  rcases hq : b.queue c with _ | ⟨p, l⟩
  · have hx := idle_explains h hc hq _ hcb
    rw [hmach] at hx
    rw [hq] at hholds
    rw [List.isEmpty_nil, if_pos rfl, ok_bind]
    dsimp only
    rw [requestWritable_eq (w := { w with mach }) hholds, List.isEmpty_nil, if_pos rfl, ok_bind]
    exact ⟨_, _, _, _, rfl, hx.returned, rfl, fun _ => rfl⟩
  · obtain ⟨heap, queue, hwrite, hcoupled', hbal⟩ :=
      writeFirst_spec hcoupled hq (env.wsi_of c) result
    have hrest := hcoupled'.holds c
    rw [Function.update_self] at hrest
    rw [List.isEmpty_cons, if_neg Bool.false_ne_true, hwrite, ok_bind, ok_bind]
    dsimp only
    rw [requestWritable_eq (w := { w with mach := mach.setQueue c heap queue }) hrest]
    subst hmach
    have hx := deliver_explains h hc hq result _ hcb
      (hcoupled'.congr rfl (fun _ => rfl)) hbal
    cases l with
    | nil =>
      exact ⟨_, _, _, _, rfl, hx.returned, rfl, fun _ => rfl⟩
    | cons q l =>
      have hpend : Function.update (Function.update w.mach.pending (env.wsi_of c) false)
          (env.wsi_of c) true = Function.update w.mach.pending (env.wsi_of c) true :=
        Function.update_idem _ _ _
      rw [List.isEmpty_cons, if_neg Bool.false_ne_true, ok_bind, List.append_assoc,
        setQueue_pending, hpend]
      exact ⟨_, _, _, _, rfl, hx.append_plain (plain_request (env.wsi_of c) false), rfl,
        fun _ => rfl⟩

/-! ## Every run -/

theorem step_keeps {env : Env H} {w : World H} {b : Outbox Conn (Addr × Bytes)}
    (h : Refines env w b) (i : Input H) :
    Keeps env [i] w.mach.heap b (step env w i) := by
  cases i with
  | user prog => exact (exec_keeps env prog h).of_aside (fun _ => rfl)
  | callback cb =>
    by_cases hd : Deliverable env w cb
    · obtain ⟨wsi, reason, user, has_protocol⟩ := cb
      rcases user with _ | c
      · exact aside_keeps h hd (.inl rfl)
      · rcases has_protocol with _ | _
        · exact aside_keeps h hd (.inr rfl)
        · have hwsi : wsi = env.wsi_of c := hd.1
          cases reason with
          | established => exact established_keeps h rfl rfl hd
          | closed => exact closed_keeps h rfl rfl hd
          | server_writeable result =>
            obtain ⟨w', out, acts, b', he, hx, _, _⟩ := writeable_explains h rfl rfl hd
            exact .inr ⟨w', out, acts, b', he, hx⟩
          | receive buffer =>
            apply plain_reason_keeps rfl rfl hd hwsi rfl (fun _ => rfl) (fun _ => rfl)
            exact process_keeps env c buffer h
          | protocol_init =>
            apply plain_reason_keeps rfl rfl hd hwsi rfl (fun _ => rfl) (fun _ => rfl)
            exact .inr ⟨w, _, [], b, rfl, h.still rfl (by simp [plain])⟩
          | raw_rx_file =>
            apply plain_reason_keeps rfl rfl hd hwsi rfl (fun _ => rfl) (fun _ => rfl)
            exact .inr ⟨w, _, [], b, rfl, h.still rfl (by simp [plain])⟩
          | other reason =>
            apply plain_reason_keeps rfl rfl hd hwsi rfl (fun _ => rfl) (fun _ => rfl)
            exact .inr ⟨w, [], [], b, rfl, h.still rfl (by simp)⟩
    · exact .inl (if_neg hd)

/-- The step lemma of a run: the relation to the outboxes is kept. -/
theorem step_refines {env : Env H} {w w' : World H} (hw : ∃ b, Refines env w b) {i : Input H}
    {out : List Event} (h : step env w i = .ok (w', out)) : ∃ b, Refines env w' b := by
  obtain ⟨b, hb⟩ := hw
  rcases step_keeps hb i with hm | ⟨w1, out1, acts, b1, hok, hx⟩
  · rw [hm] at h
    cases h
  · rw [hok] at h
    cases h
    exact ⟨b1, hx.refines⟩

theorem start_refines (env : Env H) (json : JsonStore) (oom : Nat → Bool) (user : H) :
    Refines env (start json oom user) outbox.start where
  coupled :=
    { holds := fun c => holds_init _
      apart := fun c d p q hp => by cases hp
      live := fun a ha => by cases ha }
  phase := rfl
  socket c hc := by cases hc
  pending c hc := rfl
  sound := sound_start

/-- A run of the server is a run of the outboxes, from every state where they agree. -/
theorem run_explains {env : Env H} {w w' : World H} {b : Outbox Conn (Addr × Bytes)}
    {is : List (Input H)} {out : List Event} (h : Refines env w b)
    (hr : run (step env) w is = .ok (w', out)) :
    ∃ acts b', Explains env is w.mach.heap b w' out acts b' := by
  have hsim := run_simulates Next (fun s t => Refines env s t)
    (fun s is os bs s' => (∀ c, posted c bs = sentTo c os) ∧
      (∀ c, delivered c bs = writtenOn (env.wsi_of c) os) ∧
      (∀ c, drains c bs = writeables c is) ∧ Compact env.platform.lib os ∧
      Balanced s.mach.heap s'.mach.heap os) ?_ ?_ ?_ h hr
  · obtain ⟨acts, b', hreplay, href, hpost, hdel, hdrain, htext, hbal⟩ := hsim
    exact ⟨acts, b', hreplay, href, hpost, hdel, hdrain, htext, hbal⟩
  · intro s
    exact ⟨fun _ => rfl, fun _ => rfl, fun _ => rfl, compact_plain (by simp) _,
      Balanced.refl _ rfl rfl⟩
  · rintro s is os bs s1 is' os' bs' s2 ⟨h1, h2, h3, h4, h5⟩ ⟨h1', h2', h3', h4', h5'⟩
    refine ⟨fun c => ?_, fun c => ?_, fun c => ?_, h4.append h4', h5.trans h5'⟩
    · rw [posted_append, sentTo_append, h1, h1']
    · rw [delivered_append, writtenOn_append, h2, h2']
    · rw [drains_append, writeables_append, h3, h3']
  · intro s t i s' o hR hstep
    rcases step_keeps hR i with he | ⟨w1, out, acts, b1, he, hx⟩
    · rw [he] at hstep
      cases hstep
    · rw [he] at hstep
      cases hstep
      exact ⟨acts, b1, hx.replay, hx.refines, hx.posted, hx.delivered, hx.drains, hx.compact,
        hx.balanced⟩

/-- A run ends early only when the code around the server breaks a promise. -/
theorem run_safe {env : Env H} {w : World H} {b : Outbox Conn (Addr × Bytes)}
    {is : List (Input H)} (h : Refines env w b) {e : Fault} (he : e ≠ .misuse) :
    run (step env) w is ≠ .error e := by
  refine run_never (fun s => ∃ t, Refines env s t) e ?_ ?_ ⟨b, h⟩
  · intro s i s' o hs hstep
    exact step_refines hs hstep
  · rintro s i ⟨t, ht⟩ hstep
    rcases step_keeps ht i with hm | ⟨w1, out, acts, b1, hok, hx⟩
    · rw [hm] at hstep
      cases hstep
      exact he rfl
    · rw [hok] at hstep
      cases hstep

end jrpc.service

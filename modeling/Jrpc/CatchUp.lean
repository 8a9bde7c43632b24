-- No page is left behind: from any state on, the server and the network can bring all that was said
-- to a page that is still connected, with nobody else doing anything.
import Jrpc.OneLog

open heap runs unordered room
open jrpc.json jrpc.message jrpc.queue jrpc.connection jrpc.protocol jrpc.service jrpc.chatserver
open jrpc.chatpage

namespace jrpc.network

variable {n : Setting} {oom fails : Nat → Bool} {s s' : Net} {trace more : List Happened}

/-! ## Steps in which nothing is said -/

theorem framesTo_append (c : Conn) (out out' : List connection.Event) :
    framesTo c (out ++ out') = framesTo c out ++ framesTo c out' := List.filterMap_append

/-- Nobody says anything, and the server sends nothing new. -/
structure Still (n : Setting) (trace : List Happened) : Prop where
  acts : actsIn n trace = []
  frames : ∀ c, framesTo c (serverOut trace) = []

theorem Still.nil (n : Setting) : Still n [] := ⟨rfl, fun _ => rfl⟩

theorem Still.append (h : Still n trace) (h' : Still n more) : Still n (trace ++ more) where
  acts := by rw [actsIn_append, h.acts, h'.acts, List.append_nil]
  frames c := by
    rw [serverOut_append, framesTo_append, h.frames, h'.frames, List.append_nil]

/-- A message that is not made is no frame. -/
theorem framesTo_of_sent {c : Conn} {out : List connection.Event} (h : sentTo c out = []) :
    framesTo c out = [] := by
  refine List.filterMap_eq_nil_iff.mpr fun e he => ?_
  have hnone := List.filterMap_eq_nil_iff.mp h e he
  cases e with
  | send d object message =>
    cases message with
    | none => cases object <;> rfl
    | some m =>
      cases object with
      | none => rfl
      | some frame =>
        refine if_neg fun hd => ?_
        rw [show sentBy c (.send d (some frame) (some m)) = some m from if_pos hd] at hnone
        cases hnone
  | _ => rfl

/-- The web socket was closed, or is being closed, on the side of the page. -/
def Over (s : Net) (page socket : Nat) : Prop :=
  stateOf (s.pages page) socket = .closing ∨ stateOf (s.pages page) socket = .closed

theorem carries_fine {page socket : Nat} {result : Int32} (hresult : ¬ result < 0)
    (hfine : s.broken page socket = false) (data : List Bytes) :
    (s.carries page socket result data).broken = s.broken := by
  unfold Net.carries
  split
  · rfl
  · rw [if_neg (by simp [hresult, hfine])]

/-- The server writes the first message that waits for the connection. -/
theorem write_next {b : outbox.Outbox Conn (Addr × Bytes)}
    (hb : Refines (chatServer n.hashing n.env) s.server b) {page socket : Nat}
    (hphase : s.server.phase (n.conn_of page socket) = .established)
    (hfine : s.broken page socket = false) {m : Addr × Bytes} {rest : List (Addr × Bytes)}
    (hqueue : b.queue (n.conn_of page socket) = m :: rest) :
    ∃ s1 out b1, step n s (.writes page socket 0) = .ok (s1, out) ∧
      Refines (chatServer n.hashing n.env) s1.server b1 ∧
      s1.server.phase (n.conn_of page socket) = .established ∧
      b1.queue (n.conn_of page socket) = rest ∧ s1.broken page socket = false ∧
      s1.pages = s.pages ∧ Still n out := by
  have huser : (n.session page socket (.server_writeable 0)).user =
      some (n.conn_of page socket) := rfl
  obtain ⟨w, out, acts', b1, hs, hx, hsame, hposted⟩ :=
    writeable_explains hb huser rfl ⟨rfl, hphase, rfl⟩
  have hopen : w.phase (n.conn_of page socket) = .established := hsame ▸ hphase
  obtain ⟨hrest, _⟩ := outbox.backlog hx.replay (hb.phase ▸ hphase) (hx.refines.phase ▸ hopen)
    (hposted (n.conn_of page socket))
  have hone : writeables (n.conn_of page socket)
      [(.callback (n.session page socket (.server_writeable 0)) : Input Statics)] = 1 := by
    simp [writeables, writeableFor, Setting.session]
  rw [hx.drains, hone, hqueue, List.drop_one, List.tail_cons] at hrest
  obtain ⟨hserver, hpages⟩ := carries_server { s with server := w } page socket 0
    (written n page socket [.callback (n.session page socket (.server_writeable 0)) out])
  have hstep : step n s (.writes page socket 0) = .ok (({ s with server := w } : Net).carries page
      socket 0 (written n page socket
        [.callback (n.session page socket (.server_writeable 0)) out]),
      [.callback (n.session page socket (.server_writeable 0)) out]) := by
    rw [step, callback_of_step hs]
    rfl
  refine ⟨_, _, b1, hstep, ?_, ?_, hrest, ?_, hpages, rfl, fun c => ?_⟩
  · rw [hserver]
    exact hx.refines
  · rw [hserver]
    exact hopen
  · have hsame : (({ s with server := w } : Net).carries page socket 0 (written n page socket
        [.callback (n.session page socket (.server_writeable 0)) out])).broken = s.broken :=
      carries_fine (s := { s with server := w }) (by decide) hfine _
    rw [hsame]
    exact hfine
  · rw [show serverOut [.callback (n.session page socket (.server_writeable 0)) out] = out from
      List.flatMap_singleton _ _]
    exact framesTo_of_sent ((hx.posted c).symm.trans (hposted c))

/-- It writes all of them. -/
theorem can_write {page socket : Nat} {b : outbox.Outbox Conn (Addr × Bytes)}
    (hb : Refines (chatServer n.hashing n.env) s.server b)
    (hphase : s.server.phase (n.conn_of page socket) = .established)
    (hfine : s.broken page socket = false) :
    ∃ count s' more, run (step n) s (List.replicate count (.writes page socket 0)) =
        .ok (s', more) ∧ s'.server.phase (n.conn_of page socket) = .established ∧
      s'.server.mach.pending (n.env.wsi_of (n.conn_of page socket)) = false ∧
      s'.broken page socket = false ∧ s'.pages = s.pages ∧ Still n more := by
  generalize hqueue : b.queue (n.conn_of page socket) = l
  induction l generalizing s b with
  | nil =>
    refine ⟨0, s, [], rfl, hphase, ?_, hfine, rfl, .nil n⟩
    have hiff := pending_iff hb hphase
    rw [hqueue] at hiff
    exact Bool.eq_false_iff.mpr fun hpending => Nat.lt_irrefl 0 (hiff.mp hpending)
  | cons m rest ih =>
    obtain ⟨s1, out, b1, hs, hb1, hphase1, hrest, hfine1, hpages1, hstill⟩ :=
      write_next hb hphase hfine hqueue
    obtain ⟨count, s', more, hr, hphase', hpending, hfine', hpages', hstill'⟩ :=
      ih hb1 hphase1 hfine1 hrest
    exact ⟨count + 1, s', out ++ more, run_cons_ok.mpr ⟨s1, out, more, hs, hr, rfl⟩, hphase',
      hpending, hfine', hpages'.trans hpages1, hstill.append hstill'⟩

/-- The page receives what is on its way, unless it closes the web socket. -/
theorem can_show (n : Setting) (s : Net) (page socket : Nat) :
    ∃ count s' more, run (step n) s (List.replicate count (.shows page socket)) = .ok (s', more) ∧
      s'.server = s.server ∧ s'.broken = s.broken ∧
      (stateOf (s'.pages page) socket = stateOf (s.pages page) socket ∨ Over s' page socket) ∧
      (stateOf (s'.pages page) socket ≠ .opened ∨ s'.down page socket = []) ∧ Still n more := by
  generalize hdown : s.down page socket = l
  induction l generalizing s with
  | nil => exact ⟨0, s, [], rfl, rfl, rfl, .inl rfl, .inr hdown, .nil n⟩
  | cons data rest ih =>
    by_cases hopen : stateOf (s.pages page) socket = .opened
    · have hstep : step n s (.shows page socket) = .ok (event n
          { s with down := setAt s.down page socket rest } page (.message socket data)) := by
        rw [step, hdown]
        exact if_pos hopen
      obtain ⟨count, s', more, hr, hserver, hbroken, hsame, hend, hstill⟩ :=
        ih (event n { s with down := setAt s.down page socket rest } page (.message socket data)).1
          (if_pos ⟨rfl, rfl⟩)
      have hevent : Still n
          (event n { s with down := setAt s.down page socket rest } page
            (.message socket data)).2 :=
        ⟨rfl, fun _ => rfl⟩
      -- one message leaves the web socket open, or makes the page close it
      have hone := (dispatch_wanes n.browser (.message socket data) (s.pages page)).2 socket
        (made_of_state (by simp [hopen])) (by simp [hopen])
      have hpage : (event n { s with down := setAt s.down page socket rest } page
          (.message socket data)).1.pages page =
            (dispatch n.browser (.message socket data) (s.pages page)).page :=
        Function.update_self _ _ _
      rw [hpage] at hsame
      refine ⟨count + 1, s', _, run_cons_ok.mpr ⟨_, _, more, hstep, hr, rfl⟩, hserver, hbroken,
        ?_, hend, hevent.append hstill⟩
      rcases hsame with hsame | hover
      · rcases hone with hone | hone
        · exact .inl (hsame.trans hone)
        · exact .inr (by unfold Over; rwa [hsame])
      · exact .inr hover
    · exact ⟨0, s, [], rfl, rfl, rfl, .inl rfl, .inl hopen, .nil n⟩

/-- A web socket that is connecting can open as soon as the server accepted it. -/
theorem can_open {page socket : Nat} (hphase : s.server.phase (n.conn_of page socket) ≠ .fresh) :
    ∃ s' more, step n s (.opens page socket) = .ok (s', more) ∧ s'.server = s.server ∧
      s'.broken = s.broken ∧ stateOf (s'.pages page) socket ≠ .connecting ∧ Still n more := by
  refine ⟨(event n s page (.opened socket)).1, (event n s page (.opened socket)).2,
    if_pos hphase, rfl, rfl, ?_, rfl, fun _ => rfl⟩
  rw [show (event n s page (.opened socket)).1.pages page =
    (dispatch n.browser (.opened socket) (s.pages page)).page from Function.update_self _ _ _]
  dsimp only [chatpage.dispatch]
  split
  · rename_i hconnecting
    have hborn : socket < (s.pages page).sockets.length := made_of_state (by simp [hconnecting])
    rw [onopen, send_page, stateOf_setState, if_pos ⟨rfl, hborn⟩]
    exact ReadyState.noConfusion
  · assumption

/-! ## Catching up -/

/-- The web socket opens, the server writes for it, or the page receives from it. -/
def Brings (page socket : Nat) (m : Move) : Prop :=
  m = .opens page socket ∨ m = .writes page socket 0 ∨ m = .shows page socket

/-- A page that caught up, while nothing more was said, shows on top all that was said since it
connected. -/
theorem shown_since {n : Setting} (hlib : ReadsUtf8 n.env.platform.lib)
    {oom fails : Nat → Bool} (hoom : ∀ i, oom i = false) (hfails : ∀ i, fails i = false)
    {ms ms' : List Move} {s s' : Net} {trace more : List Happened}
    (hr : run (step n) (start oom fails) ms = .ok (s, trace))
    (hrest : run (step n) s ms' = .ok (s', more)) (hstill : Still n more)
    (htext : ∀ t, n.browser.toText (.string t) = some t) (hread : ReadBack n trace)
    {page socket : Nat} (hopen : stateOf (s'.pages page) socket = .opened)
    (hcaught : CaughtUp n s' page socket) :
    ∃ since earlier, logOf n trace = saidBefore n trace page socket ++ since ∧
      publicPosts (s'.pages page) = (since.filterMap shown).reverse ++ earlier := by
  have hacts : actsIn n (trace ++ more) = actsIn n trace := by
    rw [actsIn_append, hstill.acts, List.append_nil]
  have hread' : ReadBack n (trace ++ more) := by
    intro p t v hv
    rw [serverOut_append, framesTo_append, hstill.frames, List.append_nil] at hv
    exact hread p t v hv
  have h := connected (run_append_ok.mpr ⟨s, trace, more, hr, hrest, rfl⟩)
  have hlog := h.caught_up hlib hoom hfails hread' hcaught
  have hwindow := h.window hlib hoom hfails hread' htext page
  unfold logOf saidBefore at hlog
  rw [hacts] at hlog
  rw [← (h.follows page).open hopen] at hwindow
  unfold heardBelow at hwindow
  rw [List.range_succ, List.flatMap_append, List.flatMap_singleton, List.filterMap_append,
    List.reverse_append] at hwindow
  exact ⟨_, _, hlog, hwindow⟩

/-- When no allocation fails, then whatever happened before, as long as the connection of a web
socket is established and nothing broke, the server and the network alone can bring all that is left
to the page. Then its window shows on top all that was said since it connected, unless the web
socket was closed on the side of the page. -/
theorem a_page_can_catch_up (n : Setting) (hlib : ReadsUtf8 n.env.platform.lib)
    {oom fails : Nat → Bool} (hoom : ∀ i, oom i = false) (hfails : ∀ i, fails i = false)
    {ms : List Move} {s : Net} {trace : List Happened}
    (hr : run (step n) (start oom fails) ms = .ok (s, trace))
    (htext : ∀ t, n.browser.toText (.string t) = some t) (hread : ReadBack n trace)
    {page socket : Nat} (hphase : s.server.phase (n.conn_of page socket) = .established)
    (hfine : s.broken page socket = false) :
    ∃ ms' s' more, (∀ m ∈ ms', Brings page socket m) ∧ run (step n) s ms' = .ok (s', more) ∧
      (Over s' page socket ∨
        ∃ since earlier, logOf n trace = saidBefore n trace page socket ++ since ∧
          publicPosts (s'.pages page) = (since.filterMap shown).reverse ++ earlier) := by
  have hborn : s.server.phase (n.conn_of page socket) ≠ .fresh := by
    rw [hphase]
    exact outbox.Phase.noConfusion
  obtain ⟨s0, more0, hopens, hserver0, hbroken0, hnot, hstill0⟩ := can_open hborn
  rw [← hserver0] at hphase
  rw [← congrFun (congrFun hbroken0 page) socket] at hfine
  obtain ⟨b, hb⟩ := (connected (run_snoc_ok.mpr ⟨s, trace, more0, hr, hopens, rfl⟩)).refines
  obtain ⟨writes, s1, more1, hwrite, hphase1, hpending1, hfine1, hpages1, hstill1⟩ :=
    can_write hb hphase hfine
  obtain ⟨shows, s', more2, hshow, hserver, hbroken, hsame, hend, hstill2⟩ :=
    can_show n s1 page socket
  rw [hpages1] at hsame
  have hrest : run (step n) s (.opens page socket ::
      (List.replicate writes (.writes page socket 0) ++
        List.replicate shows (.shows page socket))) = .ok (s', more0 ++ (more1 ++ more2)) :=
    run_cons_ok.mpr ⟨s0, more0, more1 ++ more2, hopens,
      run_append_ok.mpr ⟨s1, more1, more2, hwrite, hshow, rfl⟩, rfl⟩
  refine ⟨_, s', _, ?_, hrest, ?_⟩
  · intro m hm
    rcases List.mem_cons.mp hm with rfl | hm
    · exact .inl rfl
    · rcases List.mem_append.mp hm with hm | hm
      · exact .inr (.inl (List.eq_of_mem_replicate hm))
      · exact .inr (.inr (List.eq_of_mem_replicate hm))
  by_cases hopen : stateOf (s'.pages page) socket = .opened
  · right
    have hcaught : CaughtUp n s' page socket := by
      refine ⟨?_, ?_, hend.resolve_left (not_not_intro hopen), ?_⟩
      · rw [hserver]
        exact hphase1
      · rw [hserver]
        exact hpending1
      · rw [hbroken]
        exact hfine1
    exact shown_since hlib hoom hfails hr hrest (hstill0.append (hstill1.append hstill2)) htext
      hread hopen hcaught
  · left
    rcases hsame with hsame | hover
    · rw [← hsame] at hnot
      rcases hstate : stateOf (s'.pages page) socket with _ | _ | _ | _
      · exact absurd hstate hnot
      · exact absurd hstate hopen
      · exact .inl hstate
      · exact .inr hstate
    · exact hover

/-- The user took a name and spoke, and nothing was written yet. -/
theorem a_page_can_catch_up_sample :
    ∃ s trace ms' s' more, run (step smallNet) (start never never) (comesBack.take 8) =
        .ok (s, trace) ∧ (s.pages 0).content = [] ∧ (∀ m ∈ ms', Brings 0 0 m) ∧
      run (step smallNet) s ms' = .ok (s', more) ∧
      (Over s' 0 0 ∨
        ∃ since earlier, logOf smallNet trace = saidBefore smallNet trace 0 0 ++ since ∧
          publicPosts (s'.pages 0) = (since.filterMap shown).reverse ++ earlier) := by
  have htest : runEnds (step smallNet) (start never never) (comesBack.take 8) (fun s trace =>
      decide ((s.pages 0).content = [] ∧ s.server.phase (Nat.pair 0 0) = .established ∧
        s.broken 0 0 = false) &&
      ((serverOut trace).filterMap frameIn).all (fun v =>
        ((chatEnv.platform.lib.dumps v).bind smallNet.browser.parse).any v.same)) = true := by
    decide +kernel
  obtain ⟨s, trace, hrun, htest⟩ := runEnds_spec htest
  obtain ⟨hstate, hread⟩ := Bool.and_eq_true_iff.mp htest
  obtain ⟨hcontent, hphase, hfine⟩ := of_decide_eq_true hstate
  have hopen : s.server.phase (smallNet.conn_of 0 0) = .established := hphase
  obtain ⟨ms', s', more, hms, hmore, hend⟩ := a_page_can_catch_up smallNet reads_sample
    (fun _ => rfl) (fun _ => rfl) hrun (fun _ => rfl) (readBack_of_test hread) hopen hfine
  exact ⟨s, trace, ms', s', more, hrun, hcontent, hms, hmore, hend⟩

end jrpc.network

-- What holds in the whole chat, whatever its users and the network do: the windows of all pages
-- show one log, and nothing in it was made up.
import Jrpc.Network
import Mathlib.Data.Nat.Pairing

open heap runs unordered room
open jrpc.json jrpc.message jrpc.queue jrpc.connection jrpc.protocol jrpc.service jrpc.chatserver
open jrpc.chatpage

namespace jrpc.network

/-! ## What a page heard -/

/-- What was done in the room. -/
def actsIn (n : Setting) (trace : List Happened) : List ChatAct :=
  acts n.env.platform.lib ((callbacksIn trace).map .callback)

theorem actsIn_append (n : Setting) (trace more : List Happened) :
    actsIn n (trace ++ more) = actsIn n trace ++ actsIn n more := by
  unfold actsIn acts
  rw [callbacksIn_append, List.map_append, List.filterMap_append]

noncomputable def logOf (n : Setting) (trace : List Happened) : List ChatLine :=
  Room.log .empty (actsIn n trace)

/-- What the room tells the connection of a web socket. -/
noncomputable def linesFor (n : Setting) (trace : List Happened) (page socket : Nat) :
    List ChatLine :=
  Room.hears (n.conn_of page socket) .empty (actsIn n trace)

/-- The public ones of the lines that the page received on a web socket so far. -/
noncomputable def heardOn (n : Setting) (trace : List Happened) (page socket : Nat) :
    List ChatLine :=
  ((linesFor n trace page socket).take
    (receivedOn socket (eventsAt page trace)).length).filter Room.isPost

/-- What it heard on the first of its web sockets, one web socket after the other. -/
noncomputable def heardBelow (n : Setting) (trace : List Happened) (page socket : Nat) :
    List ChatLine :=
  (List.range socket).flatMap (heardOn n trace page)

/-! ## The invariant -/

/-- The server and the pages ran on what happened to them. What a page received and what is on its
way is a first part of what was written, and all of it unless the web socket broke. What a page
heard before it made a web socket was said before the connection of this web socket entered. -/
structure Connected (n : Setting) (oom fails : Nat → Bool) (s : Net) (trace : List Happened) :
    Prop where
  server : run (service.step (chatServer n.hashing n.env)) (chatStart oom fails)
    ((callbacksIn trace).map .callback) = .ok (s.server, serverOut trace)
  ran : ∀ page, run (chatpage.step n.browser) startup (eventsAt page trace) =
    .ok (s.pages page, effectsAt page trace)
  follows : ∀ page, Follows n.browser (s.pages page) (eventsAt page trace)
  carried : ∀ page socket,
    receivedOn socket (eventsAt page trace) ++ s.down page socket <+: written n page socket trace
  whole : ∀ page socket, s.broken page socket = false →
    receivedOn socket (eventsAt page trace) ++ s.down page socket = written n page socket trace
  unborn : ∀ page socket, (s.pages page).sockets.length ≤ socket →
    Room.entries (n.conn_of page socket) (actsIn n trace) = 0
  ordered : ∀ page socket, (heardBelow n trace page socket).Sublist
    (Room.log .empty (Room.upTo (n.conn_of page socket) (actsIn n trace)))

variable {n : Setting} {oom fails : Nat → Bool} {s s' : Net} {trace happened : List Happened}

theorem Connected.start (n : Setting) (oom fails : Nat → Bool) :
    Connected n oom fails (start oom fails) [] where
  server := rfl
  ran _ := rfl
  follows _ := .start _
  carried _ _ := List.prefix_rfl
  whole _ _ _ := rfl
  unborn _ _ _ := rfl
  ordered page socket := by
    have hnone : heardBelow n [] page socket = [] := by
      unfold heardBelow
      rw [List.flatMap_eq_nil_iff]
      exact fun _ _ => rfl
    rw [hnone]
    exact List.nil_sublist _

theorem Connected.refines (h : Connected n oom fails s trace) :
    ∃ b, Refines (chatServer n.hashing n.env) s.server b :=
  (start_chats h.server).chatting.refines

/-- The run of the server is a run of the outboxes. -/
theorem Connected.explains (h : Connected n oom fails s trace) :
    ∃ xs b, Explains (chatServer n.hashing n.env) ((callbacksIn trace).map .callback)
      (chatStart oom fails).mach.heap outbox.start s.server (serverOut trace) xs b :=
  run_explains (start_refines (chatServer n.hashing n.env) .empty oom ⟨.empty, fails⟩) h.server

/-- What was written for a connection is the first part of what was sent to it. -/
theorem Connected.written_was_sent (h : Connected n oom fails s trace) (page socket : Nat) :
    written n page socket trace <+:
      (sentTo (n.conn_of page socket) (serverOut trace)).map (·.2) := by
  obtain ⟨xs, b, hx⟩ := h.explains
  have hprefix := outbox.delivered_prefix (k := n.conn_of page socket) rfl hx.replay
  rw [hx.delivered, hx.posted] at hprefix
  exact hprefix.map _

/-- No page received more than the room tells it. -/
theorem Connected.received_le (h : Connected n oom fails s trace) (page socket : Nat) :
    (receivedOn socket (eventsAt page trace)).length ≤ (linesFor n trace page socket).length := by
  have hreceived := ((List.prefix_append _ _).trans (h.carried page socket)).trans
    (h.written_was_sent page socket)
  have hlines := ((start_chats h.server).hears (n.conn_of page socket)).length_eq
  rw [roomOf_start] at hlines
  calc (receivedOn socket (eventsAt page trace)).length
      ≤ (sentTo (n.conn_of page socket) (serverOut trace)).length := by
        simpa using hreceived.length_le
    _ ≤ (sendsTo (n.conn_of page socket) (serverOut trace)).length := by
        rw [sentTo_sendsTo]
        exact List.length_filterMap_le _ _
    _ = (linesFor n trace page socket).length := hlines.symm

/-- What came on one web socket is one part of the log, which begins where its connection
entered. -/
theorem heard_in_log {w : World Statics}
    (hr : run (service.step (chatServer n.hashing n.env)) (chatStart oom fails)
      ((callbacksIn trace).map .callback) = .ok (w, serverOut trace)) (page socket : Nat) :
    Room.log .empty (Room.upTo (n.conn_of page socket) (actsIn n trace)) ++
      heardOn n trace page socket <+: logOf n trace := by
  have hall : (Room.empty : Room Conn Bytes).AllowsAll (actsIn n trace) :=
    (start_chats hr).allowed
  have hdoor := Room.heard_from_the_door hall (enters_once hr (n.conn_of page socket)).1
  exact ((List.prefix_append_right_inj _).mpr ((List.take_prefix _ _).filter _)).trans hdoor

/-! ## One step -/

theorem heardOn_same {page socket : Nat} (hacts : actsIn n (trace ++ happened) = actsIn n trace)
    (hreceived : receivedOn socket (eventsAt page happened) = []) :
    heardOn n (trace ++ happened) page socket = heardOn n trace page socket := by
  unfold heardOn linesFor
  rw [hacts, eventsAt_append, receivedOn_append, hreceived, List.append_nil]

/-- What the server does later changes nothing of what a page heard. -/
theorem Connected.heardOn_stays (h : Connected n oom fails s trace) {cb : Callback}
    {out : List connection.Event} (page socket : Nat) :
    heardOn n (trace ++ [.callback cb out]) page socket = heardOn n trace page socket := by
  have hnone : eventsAt page [.callback cb out] = [] := rfl
  have hle := h.received_le page socket
  unfold heardOn linesFor at hle ⊢
  rw [actsIn_append, Room.hears_append, eventsAt_append, hnone, List.append_nil,
    List.take_append_of_le_length hle]

theorem Flows.carries {page socket : Nat} (hf : Flows n s s' happened page socket)
    (hcarried : receivedOn socket (eventsAt page trace) ++ s.down page socket <+:
      written n page socket trace)
    (hwhole : s.broken page socket = false →
      receivedOn socket (eventsAt page trace) ++ s.down page socket =
        written n page socket trace) :
    (receivedOn socket (eventsAt page (trace ++ happened)) ++ s'.down page socket <+:
        written n page socket (trace ++ happened)) ∧
      (s'.broken page socket = false →
        receivedOn socket (eventsAt page (trace ++ happened)) ++ s'.down page socket =
          written n page socket (trace ++ happened)) := by
  obtain ⟨got, hgot, hflow, hstays, hfine⟩ := hf
  have hsplit : receivedOn socket (eventsAt page (trace ++ happened)) ++ s'.down page socket =
      receivedOn socket (eventsAt page trace) ++ s.down page socket ++ got := by
    rw [eventsAt_append, receivedOn_append, List.append_assoc, hflow, List.append_assoc]
  rw [hsplit, written_append]
  rcases hbroken : s.broken page socket with _ | _
  · rw [hwhole hbroken]
    exact ⟨(List.prefix_append_right_inj _).mpr hgot, fun h => by rw [hfine h]⟩
  · obtain ⟨rfl, hbroken'⟩ := hstays hbroken
    rw [List.append_nil]
    refine ⟨hcarried.trans (List.prefix_append _ _), fun h => ?_⟩
    rw [hbroken'] at h
    cases h

theorem Connected.callback (h : Connected n oom fails s trace) {cb : Callback}
    {out : List connection.Event}
    (hs : service.step (chatServer n.hashing n.env) s.server (.callback cb) = .ok (s'.server, out))
    (hpages : s'.pages = s.pages)
    (hmade : ∀ page socket, cb.reason = .established → cb.user = some (n.conn_of page socket) →
      socket < (s.pages page).sockets.length)
    (hflows : ∀ page socket, Flows n s s' [.callback cb out] page socket) :
    Connected n oom fails s' (trace ++ [.callback cb out]) := by
  have hevents : ∀ page, eventsAt page (trace ++ [.callback cb out]) = eventsAt page trace := by
    intro page
    rw [eventsAt_append]
    exact List.append_nil _
  have hacts : actsIn n (trace ++ [.callback cb out]) =
      actsIn n trace ++ (actOf n.env.platform.lib (.callback cb)).toList := by
    rw [actsIn_append, ← acts_one]
    rfl
  have hflow := fun page socket =>
    (hflows page socket).carries (h.carried page socket) (h.whole page socket)
  refine ⟨?_, fun page => ?_, fun page => ?_, fun page socket => (hflow page socket).1,
    fun page socket => (hflow page socket).2, fun page socket hsocket => ?_,
    fun page socket => ?_⟩
  · rw [callbacksIn_append, List.map_append, serverOut_append]
    refine run_snoc_ok.mpr ⟨_, _, _, h.server, hs, ?_⟩
    exact congrArg _ (List.flatMap_singleton _ _)
  · rw [hevents, hpages, effectsAt_append]
    exact (h.ran page).trans (congrArg _ (congrArg _ (List.append_nil _).symm))
  · rw [hevents, hpages]
    exact h.follows page
  · rw [hpages] at hsocket
    rw [hacts, Room.entries_append, h.unborn page socket hsocket, Nat.zero_add,
      Room.entries_eq_zero, Option.mem_toList]
    intro hact
    obtain ⟨hu, hr⟩ := enter_of_act hact
    have hlt := hmade page socket hr hu
    omega
  · have hheard : heardBelow n (trace ++ [.callback cb out]) page socket =
        heardBelow n trace page socket :=
      List.flatMap_congr fun t _ => h.heardOn_stays page t
    rw [hheard, hacts]
    exact (h.ordered page socket).trans (Room.log_grows _ (Room.upTo_append _ _ _)).sublist

theorem callbacksIn_event (trace : List Happened) (page : Nat) (e : chatpage.Event)
    (out : List Effect) : callbacksIn (trace ++ [.event page e out]) = callbacksIn trace := by
  rw [callbacksIn_append]
  exact List.append_nil _

theorem serverOut_event (trace : List Happened) (page : Nat) (e : chatpage.Event)
    (out : List Effect) : serverOut (trace ++ [.event page e out]) = serverOut trace := by
  rw [serverOut_append]
  exact List.append_nil _

/-- What happens on a page is no act in the room. -/
theorem actsIn_event (n : Setting) (trace : List Happened) (page : Nat) (e : chatpage.Event)
    (out : List Effect) : actsIn n (trace ++ [.event page e out]) = actsIn n trace := by
  unfold actsIn
  rw [callbacksIn_event]

/-- An event that is no message on this web socket. -/
theorem heardOn_event {page p socket : Nat} {e : chatpage.Event} {out : List Effect}
    (he : ∀ data, page = p → e ≠ .message socket data) :
    heardOn n (trace ++ [.event page e out]) p socket = heardOn n trace p socket := by
  refine heardOn_same (actsIn_event n trace page e out) ?_
  rw [eventsAt_event]
  split
  · rename_i hp
    cases e with
    | message t data =>
      rw [receivedOn_message, if_neg]
      rintro rfl
      exact he data hp rfl
    | _ => rfl
  · rfl

/-- A message comes on the newest web socket of a page. What was heard there goes on where it was,
and no connection of a later web socket entered. -/
theorem Connected.ordered_message (h : Connected n oom fails s trace) {page socket : Nat}
    {data : Bytes} {out : List Effect} (hopen : stateOf (s.pages page) socket = .opened) (t : Nat) :
    (heardBelow n (trace ++ [.event page (.message socket data) out]) page t).Sublist
      (Room.log .empty (Room.upTo (n.conn_of page t) (actsIn n trace))) := by
  have hnewest := (h.follows page).open hopen
  have hother : ∀ i, i ≠ socket → heardOn n (trace ++ [.event page (.message socket data) out])
      page i = heardOn n trace page i := by
    intro i hi
    refine heardOn_event fun d _ he => ?_
    cases he
    exact hi rfl
  -- the web sockets before this one
  have hbelow : ∀ t ≤ socket,
      heardBelow n (trace ++ [.event page (.message socket data) out]) page t =
        heardBelow n trace page t := by
    intro t ht
    refine List.flatMap_congr fun i hi => hother i ?_
    have hlt := List.mem_range.mp hi
    omega
  by_cases ht : t ≤ socket
  · rw [hbelow t ht]
    exact h.ordered page t
  · have hall : heardBelow n (trace ++ [.event page (.message socket data) out]) page t =
        heardBelow n trace page socket ++
          heardOn n (trace ++ [.event page (.message socket data) out]) page socket := by
      rw [← hbelow socket (Nat.le_refl _)]
      unfold heardBelow
      rw [flatMap_range_le (show socket + 1 ≤ t by omega), List.range_succ,
        List.flatMap_append, List.flatMap_singleton]
      intro i hi
      rw [hother i (by omega)]
      unfold heardOn
      rw [(h.follows page).unborn i (by omega)]
      rfl
    have hrun : run (service.step (chatServer n.hashing n.env)) (chatStart oom fails)
        ((callbacksIn (trace ++ [.event page (.message socket data) out])).map .callback) =
          .ok (s.server, serverOut (trace ++ [.event page (.message socket data) out])) := by
      rw [callbacksIn_event, serverOut_event]
      exact h.server
    have hheard := heard_in_log hrun page socket
    unfold logOf at hheard
    rw [actsIn_event] at hheard
    rw [hall, Room.upTo_of_never (h.unborn page t (by omega))]
    exact ((h.ordered page socket).append (List.Sublist.refl _)).trans hheard.sublist

theorem Connected.ordered_event (h : Connected n oom fails s trace) {page : Nat}
    {e : chatpage.Event} {out : List Effect}
    (hopen : ∀ socket data, e = .message socket data → stateOf (s.pages page) socket = .opened)
    (p t : Nat) : (heardBelow n (trace ++ [.event page e out]) p t).Sublist
      (Room.log .empty (Room.upTo (n.conn_of p t) (actsIn n trace))) := by
  by_cases hmessage : ∃ socket data, page = p ∧ e = .message socket data
  · obtain ⟨socket, data, rfl, rfl⟩ := hmessage
    exact h.ordered_message (hopen socket data rfl) t
  · have hall : heardBelow n (trace ++ [.event page e out]) p t = heardBelow n trace p t :=
      List.flatMap_congr fun i _ => heardOn_event fun d hp he => hmessage ⟨i, d, hp, he⟩
    rw [hall]
    exact h.ordered p t

theorem Connected.event (h : Connected n oom fails s trace) {page : Nat} {e : chatpage.Event}
    (hserver : s'.server = s.server) (hpages : s'.pages =
      Function.update s.pages page (dispatch n.browser e (s.pages page)).page)
    (hopen : ∀ socket data, e = .message socket data → stateOf (s.pages page) socket = .opened)
    (hflows : ∀ p t, Flows n s s' [.event page e (dispatch n.browser e (s.pages page)).out] p t) :
    Connected n oom fails s'
      (trace ++ [.event page e (dispatch n.browser e (s.pages page)).out]) := by
  generalize hout : (dispatch n.browser e (s.pages page)).out = out at hflows ⊢
  have hlength : ∀ p, (s.pages p).sockets.length ≤ (s'.pages p).sockets.length := by
    intro p
    rw [hpages]
    by_cases hp : p = page
    · subst hp
      rw [Function.update_self]
      exact (dispatch_wanes _ _ _).1
    · rw [Function.update_of_ne hp]
  have hflow := fun p t => (hflows p t).carries (h.carried p t) (h.whole p t)
  refine ⟨?_, fun p => ?_, fun p => ?_, fun p t => (hflow p t).1, fun p t => (hflow p t).2,
    fun p t ht => ?_, fun p t => ?_⟩
  · rw [callbacksIn_event, serverOut_event, hserver]
    exact h.server
  · rw [eventsAt_append, effectsAt_append, eventsAt_event, effectsAt_event, hpages]
    by_cases hp : page = p
    · subst hp
      rw [if_pos rfl, if_pos rfl, Function.update_self]
      exact run_snoc_ok.mpr ⟨_, _, _, h.ran page, by rw [chatpage.step, hout], rfl⟩
    · rw [if_neg hp, if_neg hp, Function.update_of_ne (Ne.symm hp), List.append_nil,
        List.append_nil]
      exact h.ran p
  · rw [eventsAt_append, eventsAt_event, hpages]
    by_cases hp : page = p
    · subst hp
      rw [if_pos rfl, Function.update_self]
      exact (h.follows page).event hopen
    · rw [if_neg hp, Function.update_of_ne (Ne.symm hp), List.append_nil]
      exact h.follows p
  · rw [actsIn_event]
    exact h.unborn p t (Nat.le_trans (hlength p) ht)
  · rw [actsIn_event]
    exact h.ordered_event hopen p t

theorem Connected.step (h : Connected n oom fails s trace) {m : Move}
    (hs : network.step n s m = .ok (s', happened)) :
    Connected n oom fails s' (trace ++ happened) := by
  have hnext := step_next hs
  have hflows := hnext.flows h.refines
  cases hnext.does with
  | callback hcallback hpages hmade => exact h.callback hcallback hpages hmade hflows
  | event hserver hpages hopen => exact h.event hserver hpages hopen hflows

theorem connected {ms : List Move}
    (hr : run (network.step n) (network.start oom fails) ms = .ok (s, trace)) :
    Connected n oom fails s trace :=
  run_invariant (fun s trace => Connected n oom fails s trace) (fun _ _ _ _ _ h hs => h.step hs)
    (Connected.start n oom fails) hr

/-! ## The windows -/

/-- What was said before the connection of a web socket entered. -/
noncomputable def saidBefore (n : Setting) (trace : List Happened) (page socket : Nat) :
    List ChatLine :=
  Room.log .empty (Room.upTo (n.conn_of page socket) (actsIn n trace))

/-- Nothing is on its way to the web socket, and nothing waits to be written. -/
def CaughtUp (n : Setting) (s : Net) (page socket : Nat) : Prop :=
  s.server.phase (n.conn_of page socket) = .established ∧
    s.server.mach.pending (n.env.wsi_of (n.conn_of page socket)) = false ∧
    s.down page socket = [] ∧ s.broken page socket = false

/-- All that is sent can be read back by the pages. -/
def ReadBack (n : Setting) (trace : List Happened) : Prop :=
  ∀ page socket, ∀ v ∈ framesTo (n.conn_of page socket) (serverOut trace),
    (n.env.platform.lib.dumps v).bind n.browser.parse = some v

theorem posts_of_lines {b : Browser} (htext : ∀ t, b.toText (.string t) = some t)
    {lines : List ChatLine} {received : List Bytes}
    (h : List.Forall₂ (fun l data => b.parse data = some (lineFrame l)) lines received) :
    received.filterMap (postOf b) = lines.filterMap shown := by
  induction h with
  | nil => rfl
  | @cons l data lines received hparse _ ih =>
    have hpost := postOf_line htext hparse
    rcases hl : shown l with _ | post
    · rw [List.filterMap_cons_none (hpost.trans hl), List.filterMap_cons_none hl, ih]
    · rw [List.filterMap_cons_some (hpost.trans hl), List.filterMap_cons_some hl, ih]

/-- Each line for a connection was sent as a message that the pages read as its frame. -/
theorem Connected.lines_sent (h : Connected n oom fails s trace)
    (hlib : ReadsUtf8 n.env.platform.lib) (hoom : ∀ i, oom i = false)
    (hfails : ∀ i, fails i = false)
    (hread : ReadBack n trace) (page socket : Nat) :
    List.Forall₂ (fun l data => n.browser.parse data = some (lineFrame l))
      (linesFor n trace page socket)
      ((sentTo (n.conn_of page socket) (serverOut trace)).map (·.2)) := by
  obtain ⟨xs, b, hx⟩ := h.explains
  exact List.forall₂_map_right_iff.mpr (sent_lines
    ((start_chats h.server).hears (n.conn_of page socket)) (full_start hlib hoom hfails)
    hx.compact (hread page socket))

/-- What a page received are the first of these messages. -/
theorem Connected.lines_received (h : Connected n oom fails s trace)
    (hlib : ReadsUtf8 n.env.platform.lib) (hoom : ∀ i, oom i = false)
    (hfails : ∀ i, fails i = false)
    (hread : ReadBack n trace) (page socket : Nat) :
    List.Forall₂ (fun l data => n.browser.parse data = some (lineFrame l))
      ((linesFor n trace page socket).take (receivedOn socket (eventsAt page trace)).length)
      (receivedOn socket (eventsAt page trace)) := by
  have hsent := h.lines_sent hlib hoom hfails hread page socket
  obtain ⟨rest, hrest⟩ := ((List.prefix_append _ _).trans (h.carried page socket)).trans
    (h.written_was_sent page socket)
  rw [← hrest] at hsent
  exact List.forall₂_take_append _ _ _ hsent

/-- The window of a page shows what the page heard on its web sockets. -/
theorem Connected.window (h : Connected n oom fails s trace)
    (hlib : ReadsUtf8 n.env.platform.lib) (hoom : ∀ i, oom i = false)
    (hfails : ∀ i, fails i = false)
    (hread : ReadBack n trace) (htext : ∀ t, n.browser.toText (.string t) = some t) (page : Nat) :
    publicPosts (s.pages page) =
      ((heardBelow n trace page (s.pages page).sockets.length).filterMap shown).reverse := by
  have hone : ∀ socket, (receivedOn socket (eventsAt page trace)).filterMap (postOf n.browser) =
      (heardOn n trace page socket).filterMap shown := by
    intro socket
    unfold heardOn
    rw [posts_of_lines htext (h.lines_received hlib hoom hfails hread page socket), filterMap_shown]
  rw [(h.follows page).window]
  unfold receivedBelow heardBelow
  rw [List.filterMap_flatMap, List.filterMap_flatMap,
    List.flatMap_congr fun socket _ => hone socket]

/-- When it has caught up, a page heard all that was said since its connection entered. -/
theorem Connected.caught_up (h : Connected n oom fails s trace)
    (hlib : ReadsUtf8 n.env.platform.lib) (hoom : ∀ i, oom i = false)
    (hfails : ∀ i, fails i = false)
    (hread : ReadBack n trace) {page socket : Nat} (hcaught : CaughtUp n s page socket) :
    logOf n trace = saidBefore n trace page socket ++ heardOn n trace page socket := by
  obtain ⟨hphase, hpending, hdown, hbroken⟩ := hcaught
  obtain ⟨xs, b, hx⟩ := h.explains
  -- the queue is empty, so all that was sent was written
  have hqueue : b.queue (n.conn_of page socket) = [] := by
    have hiff := pending_iff hx.refines hphase
    rw [show (chatServer n.hashing n.env).wsi_of = n.env.wsi_of from rfl, hpending] at hiff
    exact List.eq_nil_of_length_eq_zero (Nat.eq_zero_of_not_pos fun hpos =>
      Bool.false_ne_true (hiff.mpr hpos))
  have hledger := outbox.ledger_replay (k := n.conn_of page socket) rfl hx.replay
  unfold outbox.Ledger at hledger
  rw [← hx.refines.phase, hphase, hx.delivered, hx.posted] at hledger
  dsimp only at hledger
  rw [hqueue, List.append_nil] at hledger
  have hall : (receivedOn socket (eventsAt page trace)).length =
      (linesFor n trace page socket).length := by
    have hwhole := h.whole page socket hbroken
    rw [hdown, List.append_nil] at hwhole
    rw [hwhole, (h.lines_sent hlib hoom hfails hread page socket).length_eq, ← hledger]
    rfl
  have hstays : .leave (n.conn_of page socket) ∉ actsIn n trace :=
    leave_not_in_acts fun wsi p => has_not_left ⟨_, start_refines _ _ _ _⟩ h.server hphase
  unfold heardOn
  rw [hall, List.take_length]
  exact Room.heard_all_from_the_door (start_chats h.server).allowed
    (enters_once h.server (n.conn_of page socket)).1 hstays

/-- Whatever the users and the network do, there is one log, and what each page shows is a selection
of its lines in their order, the newest one first: one part of the log for each web socket that the
page made, which begins where the connection of this web socket entered. When nothing is on its way
any more, a part goes up to the end of the log. -/
theorem windows_are_parts_of_one_log (n : Setting) (hlib : ReadsUtf8 n.env.platform.lib)
    {oom fails : Nat → Bool} (hoom : ∀ i, oom i = false) (hfails : ∀ i, fails i = false)
    {ms : List Move} {s : Net} {trace : List Happened}
    (hr : run (step n) (start oom fails) ms = .ok (s, trace))
    (htext : ∀ t, n.browser.toText (.string t) = some t) (hread : ReadBack n trace) :
    Room.Orderly [] (logOf n trace) ∧
      ∀ page, ∃ parts : List (List ChatLine),
        publicPosts (s.pages page) = (parts.flatten.filterMap shown).reverse ∧
        parts.flatten.Sublist (logOf n trace) ∧
        parts.length = (s.pages page).sockets.length ∧
        ∀ socket part, parts[socket]? = some part →
          saidBefore n trace page socket ++ part <+: logOf n trace ∧
          (CaughtUp n s page socket → logOf n trace = saidBefore n trace page socket ++ part) := by
  have h := connected hr
  refine ⟨?_, fun page =>
    ⟨(List.range (s.pages page).sockets.length).map (heardOn n trace page), ?_, ?_, ?_, ?_⟩⟩
  · exact Room.only_who_is_there_speaks Room.apart_empty (fun k name hk => (by cases hk)) _
  · rw [← List.flatMap_def]
    exact h.window hlib hoom hfails hread htext page
  · have hordered := h.ordered page (s.pages page).sockets.length
    rw [Room.upTo_of_never (h.unborn page _ (Nat.le_refl _))] at hordered
    rw [← List.flatMap_def]
    exact hordered
  · rw [List.length_map, List.length_range]
  · intro socket part hpart
    obtain ⟨t, ht, rfl⟩ := Option.map_eq_some_iff.mp (List.getElem?_map ▸ hpart)
    obtain ⟨hlt, rfl⟩ := List.getElem?_eq_some_iff.mp ht
    rw [List.getElem_range]
    exact ⟨heard_in_log h.server page socket, h.caught_up hlib hoom hfails hread⟩

/-- A network where all connections are from pages, with the server and the browser of the other
examples. -/
def smallNet : Setting where
  hashing := newestFirst
  env := chatEnv
  browser := sampleBrowser ([.granted (text "ann") 42, .arrived (text "ann"),
    .message (text "ann") (text "hi"), .gone (text "ann")].map fun l : ChatLine => lineFrame l)
  conn_of := Nat.pair
  page_of c := some (Nat.unpair c)
  page_of_conn page socket := congrArg some (Nat.unpair_pair page socket)

/-- A user takes a name and speaks, and connects once more before the first connection is gone. -/
def comesBack : List Move :=
  [.user 0 (.edit_nickname (text "ann")), .user 0 (.edit_message (text "hi")),
    .user 0 .click_connect, .accepts 0 0, .opens 0 0, .arrives 0 0, .user 0 .click_submit,
    .arrives 0 0, .writes 0 0 9, .writes 0 0 9, .writes 0 0 9, .shows 0 0, .shows 0 0, .shows 0 0,
    .user 0 .click_connect, .accepts 0 1, .leaves 0 0, .opens 0 1, .arrives 0 1, .writes 0 1 9,
    .writes 0 1 9, .writes 0 1 9, .shows 0 1, .shows 0 1, .shows 0 1]

def frameIn : connection.Event → Option Json
  | .send _ object _ => object
  | _ => none

/-- A test of what is sent to anyone. -/
theorem readBack_of_test {n : Setting} {trace : List Happened}
    (h : ((serverOut trace).filterMap frameIn).all (fun v =>
      ((n.env.platform.lib.dumps v).bind n.browser.parse).any v.same) = true) :
    ReadBack n trace := by
  intro page socket v hv
  obtain ⟨e, he, hframe⟩ := List.mem_filterMap.mp hv
  have hin : v ∈ (serverOut trace).filterMap frameIn := by
    refine List.mem_filterMap.mpr ⟨e, he, ?_⟩
    unfold frameFor at hframe
    split at hframe
    · rw [← (Option.ite_none_right_eq_some.mp hframe).2]
      rfl
    · cases hframe
  obtain ⟨u, hu, hsame⟩ := (Option.any_eq_true _ _).mp (List.all_eq_true.mp h v hin)
  rw [hu, (Json.same_iff v u).mp hsame]

theorem windows_are_parts_of_one_log_sample :
    ∃ s trace first second, run (step smallNet) (start never never) comesBack = .ok (s, trace) ∧
      (s.pages 0).content = [.announcement (text "ann has entered"),
        .announcement (text "ann left the chat"), .message (text "ann") (text "hi"),
        .announcement (text "ann has entered")] ∧
      publicPosts (s.pages 0) = ((first ++ second).filterMap shown).reverse ∧
      (first ++ second).Sublist (logOf smallNet trace) ∧
      logOf smallNet trace = saidBefore smallNet trace 0 1 ++ second := by
  have htest : runEnds (step smallNet) (start never never) comesBack (fun s trace =>
      decide ((s.pages 0).content = [.announcement (text "ann has entered"),
        .announcement (text "ann left the chat"), .message (text "ann") (text "hi"),
        .announcement (text "ann has entered")] ∧ (s.pages 0).sockets.length = 2 ∧
        s.server.phase (Nat.pair 0 1) = .established ∧
        s.server.mach.pending (Nat.pair 0 1) = false ∧ s.down 0 1 = [] ∧
        s.broken 0 1 = false) &&
      ((serverOut trace).filterMap frameIn).all (fun v =>
        ((chatEnv.platform.lib.dumps v).bind smallNet.browser.parse).any v.same)) = true := by
    decide +kernel
  obtain ⟨s, trace, hrun, htest⟩ := runEnds_spec htest
  obtain ⟨hstate, hread⟩ := Bool.and_eq_true_iff.mp htest
  obtain ⟨hcontent, hsockets, hcaught⟩ := of_decide_eq_true hstate
  obtain ⟨_, hpages⟩ := windows_are_parts_of_one_log smallNet reads_sample (fun _ => rfl)
    (fun _ => rfl) hrun (fun _ => rfl) (readBack_of_test hread)
  obtain ⟨parts, hwindow, hordered, hlength, hparts⟩ := hpages 0
  rw [hsockets] at hlength
  obtain ⟨first, second, rfl⟩ := List.length_eq_two.mp hlength
  refine ⟨s, trace, first, second, hrun, hcontent, ?_, ?_, (hparts 1 second rfl).2 hcaught⟩
  · simpa using hwindow
  · simpa using hordered

end jrpc.network

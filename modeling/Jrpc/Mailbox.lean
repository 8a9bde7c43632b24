-- All queues of the server at once, over the one heap of messages: each live message is in
-- exactly one queue, and each message is disposed at most once. The functions that touch a
-- queue keep this, and each of them changes the list of one connection only.
import Jrpc.Connection

open heap chain
open jrpc.json jrpc.message jrpc.queue

namespace jrpc.connection

/-! ## All queues -/

/-- The queue of each connection holds its list, and every live message is in one list. -/
structure Coupled (m : Machine) (box : Conn → List (Addr × Bytes)) : Prop where
  holds : ∀ c, Holds m.heap (m.conns c).messages (box c)
  apart : ∀ c d p q, p ∈ box c → q ∈ box d → p.1 = q.1 → c = d
  live : ∀ a, m.heap.Live a → ∃ c, a ∈ (box c).map (·.1)

/-- Only heap and queues count. -/
theorem Coupled.congr {m m' : Machine} {box : Conn → List (Addr × Bytes)} (h : Coupled m box)
    (hheap : m'.heap = m.heap) (hq : ∀ c, (m'.conns c).messages = (m.conns c).messages) :
    Coupled m' box := by
  refine ⟨fun c => ?_, h.apart, ?_⟩
  · rw [hheap, hq]
    exact h.holds c
  · rw [hheap]
    exact h.live

@[simp] theorem setQueue_heap (m : Machine) (c : Conn) (heap : MessageHeap) (q : JrpcQueue) :
    (m.setQueue c heap q).heap = heap := rfl

@[simp] theorem setQueue_messages_self (m : Machine) (c : Conn) (heap : MessageHeap)
    (q : JrpcQueue) : ((m.setQueue c heap q).conns c).messages = q := by
  simp [Machine.setQueue]

theorem setQueue_messages_ne {m : Machine} {c d : Conn} {heap : MessageHeap} {q : JrpcQueue}
    (hd : d ≠ c) : ((m.setQueue c heap q).conns d).messages = (m.conns d).messages := by
  simp [Machine.setQueue, Function.update_of_ne hd]

@[simp] theorem setQueue_wsi (m : Machine) (c d : Conn) (heap : MessageHeap) (q : JrpcQueue) :
    ((m.setQueue c heap q).conns d).wsi = (m.conns d).wsi := by
  by_cases hd : d = c
  · subst d; simp [Machine.setQueue]
  · simp [Machine.setQueue, Function.update_of_ne hd]

@[simp] theorem setQueue_pending (m : Machine) (c : Conn) (heap : MessageHeap) (q : JrpcQueue) :
    (m.setQueue c heap q).pending = m.pending := rfl

/-- One queue and the heap change, and no other queue loses a message. -/
theorem coupled_setQueue {m : Machine} {box : Conn → List (Addr × Bytes)} (h : Coupled m box)
    {c : Conn} {heap : MessageHeap} {q : JrpcQueue} {l : List (Addr × Bytes)}
    (hq : Holds heap q l)
    (hsame : ∀ d, d ≠ c → ∀ p ∈ box d, heap.cells p.1 = m.heap.cells p.1)
    (happart : ∀ d, d ≠ c → ∀ p ∈ l, ∀ p' ∈ box d, p.1 ≠ p'.1)
    (hlive : ∀ a, heap.Live a → a ∈ l.map (·.1) ∨ ∃ d, d ≠ c ∧ a ∈ (box d).map (·.1)) :
    Coupled (m.setQueue c heap q) (Function.update box c l) := by
  refine ⟨fun d => ?_, fun d e p p' hp hp' he => ?_, fun a ha => ?_⟩
  · by_cases hd : d = c
    · subst d; simpa using hq
    · rw [setQueue_messages_ne hd, Function.update_of_ne hd]
      exact (h.holds d).congr (hsame d hd)
  · by_cases hd : d = c
    · by_cases hec : e = c
      · rw [hd, hec]
      · subst d
        rw [Function.update_self] at hp
        rw [Function.update_of_ne hec] at hp'
        exact absurd he (happart e hec p hp p' hp')
    · rw [Function.update_of_ne hd] at hp
      by_cases hec : e = c
      · subst e
        rw [Function.update_self] at hp'
        exact absurd he.symm (happart d hd p' hp' p hp)
      · rw [Function.update_of_ne hec] at hp'
        exact h.apart d e p p' hp hp' he
  · rcases hlive a ha with hl | ⟨d, hd, hl⟩
    · refine ⟨c, ?_⟩
      rwa [Function.update_self]
    · refine ⟨d, ?_⟩
      rwa [Function.update_of_ne hd]

/-! ## Every message is disposed once

Messages are created at the addresses 0, 1, 2 and so on, and no address comes back. -/

def createdBy : Event → Option Addr
  | .send _ _ (some (a, _)) => some a
  | _ => none

def disposedBy : Event → Option Addr
  | .dispose a => some a
  | _ => none

/-- The messages that were created, oldest first. -/
def created (out : List Event) : List Addr := out.filterMap createdBy

/-- The messages that were disposed, oldest first. -/
def disposed (out : List Event) : List Addr := out.filterMap disposedBy

/-- Every address below `next` was created once. It was disposed once if it is not live, and
never if it is. -/
structure Accounts (heap : MessageHeap) (out : List Event) : Prop where
  births : created out = List.range heap.next
  deaths : ∀ a, (disposed out).count a = if a < heap.next ∧ ¬ heap.Live a then 1 else 0

/-- What a step adds to the accounts. -/
def Balanced (heap heap' : MessageHeap) (out : List Event) : Prop :=
  ∀ h, Accounts heap h → Accounts heap' (h ++ out)

@[simp] theorem created_append (o o' : List Event) :
    created (o ++ o') = created o ++ created o' := by
  simp [created]

@[simp] theorem disposed_append (o o' : List Event) :
    disposed (o ++ o') = disposed o ++ disposed o' := by
  simp [disposed]

theorem Balanced.refl (heap : MessageHeap) {out : List Event} (hc : created out = [])
    (hd : disposed out = []) : Balanced heap heap out := by
  intro h ha
  refine ⟨?_, fun a => ?_⟩
  · rw [created_append, hc, List.append_nil]
    exact ha.births
  · rw [disposed_append, hd, List.append_nil]
    exact ha.deaths a

theorem Balanced.trans {h1 h2 h3 : MessageHeap} {o o' : List Event} (h : Balanced h1 h2 o)
    (h' : Balanced h2 h3 o') : Balanced h1 h3 (o ++ o') := by
  intro hist ha
  rw [← List.append_assoc]
  exact h' _ (h _ ha)

/-- One more message was created, and perhaps links were changed. -/
theorem balanced_create {heap heap1 heap' : MessageHeap} {out : List Event} {x : JrpcMessage}
    {l : List Addr} (halloc : heap1 = heap.alloc x) (hr : Relinked heap1 heap' l)
    (hc : created out = [heap.next]) (hd : disposed out = []) : Balanced heap heap' out := by
  intro h ha
  have hnext : heap'.next = heap.next + 1 := by rw [hr.next, halloc]; rfl
  refine ⟨?_, fun a => ?_⟩
  · rw [created_append, hc, ha.births, hnext, List.range_succ]
  · rw [disposed_append, hd, List.append_nil, ha.deaths a, hnext]
    have hlive : a ≠ heap.next → (heap'.Live a ↔ heap.Live a) := by
      intro hne
      rw [hr.live, halloc]
      unfold Arena.Live
      rw [Arena.alloc_cells_ne hne]
    have hnew : heap'.Live heap.next := by
      rw [hr.live, halloc]
      unfold Arena.Live
      rw [Arena.alloc_cells_next]
      rfl
    by_cases hne : a = heap.next
    · subst a; simp [hnew]
    · have hlt : a < heap.next + 1 ↔ a < heap.next := by
        rw [Nat.lt_succ_iff]
        exact ⟨fun hle => Nat.lt_of_le_of_ne hle hne, Nat.le_of_lt⟩
      simp only [hlive hne, hlt]

/-- Some live messages were disposed, each of them once. -/
theorem balanced_free {heap heap' : MessageHeap} {out : List Event} {l : List Addr}
    (hf : Freed heap heap' l) (hl : l.Nodup) (hlive : ∀ a ∈ l, heap.Live a)
    (hc : created out = []) (hd : disposed out = l) : Balanced heap heap' out := by
  intro h ha
  refine ⟨?_, fun a => ?_⟩
  · rw [created_append, hc, List.append_nil, ha.births, hf.next]
  · rw [disposed_append, hd, List.count_append, ha.deaths a, hf.next]
    by_cases hal : a ∈ l
    · have hgone : ¬ heap'.Live a := by
        unfold Arena.Live
        rw [hf.gone a hal]
        simp
      obtain ⟨x, hx⟩ := Arena.live_iff.mp (hlive a hal)
      have hlt := Arena.lt_next_of_cell hx
      rw [hl.count, if_pos hal]
      simp [hgone, hlt, hlive a hal]
    · have hsame : heap'.Live a ↔ heap.Live a := by
        unfold Arena.Live
        rw [hf.same a hal]
      rw [List.count_eq_zero_of_not_mem hal]
      simp [hsame]

theorem Accounts.count_le_one {heap : MessageHeap} {out : List Event} (h : Accounts heap out)
    (a : Addr) : (disposed out).count a ≤ 1 := by
  rw [h.deaths]
  split
  · exact Nat.le_refl 1
  · exact Nat.zero_le 1

theorem Accounts.created_of_disposed {heap : MessageHeap} {out : List Event}
    (h : Accounts heap out) {a : Addr} (ha : a ∈ disposed out) : a ∈ created out := by
  have hpos := List.count_pos_iff.mpr ha
  rw [h.deaths] at hpos
  split at hpos
  · rename_i hlt
    rw [h.births]
    exact List.mem_range.mpr hlt.1
  · cases hpos

/-- With no live message left, every message was disposed. -/
theorem Accounts.all_disposed {heap : MessageHeap} {out : List Event} (h : Accounts heap out)
    (hnone : ∀ a, ¬ heap.Live a) {a : Addr} (ha : a ∈ created out) :
    (disposed out).count a = 1 := by
  rw [h.births] at ha
  rw [h.deaths, if_pos ⟨List.mem_range.mp ha, hnone a⟩]

/-! ## What the functions of connection.c do -/

/-- The message that a call of `jrpc_connection_send` creates. -/
def newMessage (p : Platform) (message_data : Option JsonRef) (m : Machine) :
    Option (Addr × Bytes) :=
  if m.oom 0 then none else some (m.heap.next, textOf p.lib m.json message_data)

/-- What can be seen of the call. -/
def sendEvents (p : Platform) (c : Conn) (message_data : Option JsonRef) (wsi : Wsi)
    (m : Machine) : List Event :=
  .send c (message_data.bind m.json.read) (newMessage p message_data m) ::
    if (newMessage p message_data m).isSome then [.on_writable wsi] else []

/-- The state after `jrpc_connection_send`: one message more in one queue, and a request for
its socket, or none of both when no message was created. -/
structure Sent (p : Platform) (c : Conn) (message_data : Option JsonRef) (wsi : Wsi)
    (box : Conn → List (Addr × Bytes)) (m m' : Machine) : Prop where
  coupled : Coupled m' (Function.update box c (box c ++ (newMessage p message_data m).toList))
  json : m'.json = json_decref message_data m.json
  oom : m'.oom = later 1 m.oom
  pending : m'.pending =
    if (newMessage p message_data m).isSome then Function.update m.pending wsi true
    else m.pending
  sockets : ∀ d, (m'.conns d).wsi = (m.conns d).wsi
  balanced : Balanced m.heap m'.heap (sendEvents p c message_data wsi m)

/-- A new message is in no queue yet. -/
theorem Coupled.ne_next {m : Machine} {box : Conn → List (Addr × Bytes)} (h : Coupled m box)
    {c : Conn} {p : Addr × Bytes} (hp : p ∈ box c) : p.1 ≠ m.heap.next := by
  obtain ⟨x, hx⟩ := Arena.live_iff.mp ((h.holds c).live hp)
  exact Nat.ne_of_lt (Arena.lt_next_of_cell hx)

/-- A new message is put at the end of one queue. -/
theorem coupled_append {m : Machine} {box : Conn → List (Addr × Bytes)} (h : Coupled m box)
    (c : Conn) (x : JrpcMessage) :
    ∃ heap' queue', jrpc_queue_append (m.heap.alloc x) (m.conns c).messages m.heap.next =
        .ok (heap', queue') ∧
      Coupled (m.setQueue c heap' queue')
        (Function.update box c (box c ++ [(m.heap.next, x.bytes)])) ∧
      ∃ l, Relinked (m.heap.alloc x) heap' l := by
  have hold : ∀ d, ∀ q ∈ box d, (m.heap.alloc x).cells q.1 = m.heap.cells q.1 :=
    fun d q hq => Arena.alloc_cells_ne (h.ne_next hq)
  have hfree : m.heap.next ∉ (box c).map (·.1) := by
    intro hmem
    obtain ⟨q, hq, he⟩ := List.mem_map.mp hmem
    exact h.ne_next hq he
  have hcell : ((m.heap.alloc x).cells m.heap.next).map (·.bytes) = some x.bytes := by
    simp
  obtain ⟨heap', queue', happ, hholds, hr⟩ :=
    append_spec ((h.holds c).congr (hold c)) hcell hfree
  refine ⟨heap', queue', happ, coupled_setQueue h hholds ?_ ?_ ?_, _, hr⟩
  · intro d hd q hq
    rw [hr.same, hold d q hq]
    intro hmem
    rcases List.mem_cons.mp hmem with he | hmem
    · exact h.ne_next hq he
    · obtain ⟨q', hq', he⟩ := List.mem_map.mp hmem
      exact hd (h.apart d c q q' hq hq' he.symm)
  · intro d hd q hq q' hq' he
    rcases List.mem_append.mp hq with hq | hq
    · exact hd (h.apart d c q' q hq' hq he.symm)
    · rw [List.mem_singleton.mp hq] at he
      exact h.ne_next hq' he.symm
  · intro a ha
    rw [hr.live] at ha
    by_cases hne : a = m.heap.next
    · left
      simp [hne]
    · unfold Arena.Live at ha
      rw [Arena.alloc_cells_ne hne] at ha
      obtain ⟨d, hd⟩ := h.live a ha
      by_cases hdc : d = c
      · left
        subst d
        rw [List.map_append]
        exact List.mem_append_left _ hd
      · exact Or.inr ⟨d, hdc, hd⟩

theorem send_spec (p : Platform) {c : Conn} (message_data : Option JsonRef) {wsi : Wsi}
    {box : Conn → List (Addr × Bytes)} {m : Machine} (h : Coupled m box)
    (hwsi : (m.conns c).wsi = some wsi) :
    ∃ m', jrpc_connection_send p c message_data m =
        .ok (m', sendEvents p c message_data wsi m) ∧ Sent p c message_data wsi box m m' := by
  rcases hoom : m.oom 0 with _ | _
  · have hnew : newMessage p message_data m =
        some (m.heap.next, textOf p.lib m.json message_data) := by
      simp [newMessage, hoom]
    obtain ⟨x, hx, hcreate⟩ : ∃ x : JrpcMessage, x.bytes = textOf p.lib m.json message_data ∧
        jrpc_message_create p.lib p.abi (m.oom 0) m.json message_data m.heap =
          (m.heap.alloc x, some m.heap.next) := by
      refine ⟨_, ?_, by rw [create_spec, hoom, if_neg Bool.false_ne_true]⟩
      simp [JrpcMessage.bytes]
    obtain ⟨heap', queue', happ, hcoupled, l, hr⟩ := coupled_append h c x
    have hw : ((({ m with oom := later 1 m.oom } : Machine).setQueue c heap' queue').conns c).wsi =
        some wsi := by
      rw [setQueue_wsi]
      exact hwsi
    refine ⟨{ m.setQueue c heap' queue' with
      json := json_decref message_data m.json
      oom := later 1 m.oom
      pending := Function.update m.pending wsi true }, ?_, ?_, rfl, rfl, ?_, ?_, ?_⟩
    · unfold jrpc_connection_send
      simp only [hcreate, happ, ok_bind, hw, lws_callback_on_writable]
      simp [sendEvents, hnew, hx, Machine.setQueue]
    · rw [hnew, ← hx]
      exact hcoupled.congr rfl (fun d => rfl)
    · rw [hnew]
      rfl
    · intro d
      exact setQueue_wsi m c d heap' queue'
    · refine balanced_create rfl hr ?_ ?_ <;>
        simp [sendEvents, hnew, created, createdBy, disposed, disposedBy]
  · have hnew : newMessage p message_data m = none := by
      simp [newMessage, hoom]
    refine ⟨{ m with oom := later 1 m.oom, json := json_decref message_data m.json },
      ?_, ?_, rfl, rfl, ?_, fun d => rfl, ?_⟩
    · unfold jrpc_connection_send
      rw [create_spec, hoom, if_pos rfl]
      simp [sendEvents, hnew]
    · rw [hnew]
      simp only [Option.toList_none, List.append_nil, Function.update_eq_self]
      exact h.congr rfl (fun d => rfl)
    · rw [hnew]
      rfl
    · apply Balanced.refl
      · simp [sendEvents, hnew, created, createdBy]
      · simp [sendEvents, hnew, disposed, disposedBy]

/-- The object that a call of user code builds, and the state in which it is sent. -/
def Send.build (lib : JsonLib) (oom : Nat → Bool) : Send → JsonStore → JsonStore × Option JsonRef
  | .respond result id => responseObject oom result id
  | .respond_error code message id => errorObject lib oom code message id
  | .notify method params => notificationObject lib oom method params

/-- The allocations that the building takes. -/
def Send.allocations : Send → Nat
  | .respond _ _ => 4
  | .respond_error _ _ _ => 9
  | .notify _ _ => 4

def Send.object (p : Platform) (call : Send) (m : Machine) : Option JsonRef :=
  (call.build p.lib m.oom m.json).2

def Send.ready (p : Platform) (call : Send) (m : Machine) : Machine :=
  { m with json := (call.build p.lib m.oom m.json).1, oom := later call.allocations m.oom }

/-- Each of the three functions builds an object and sends it. -/
theorem Send.run_eq (p : Platform) (c : Conn) (call : Send) (m : Machine) :
    call.run p c m = jrpc_connection_send p c (call.object p m) (call.ready p m) := by
  cases call <;> rfl

theorem Send.run_spec (p : Platform) {c : Conn} (call : Send) {wsi : Wsi}
    {box : Conn → List (Addr × Bytes)} {m : Machine} (h : Coupled m box)
    (hwsi : (m.conns c).wsi = some wsi) :
    ∃ m', call.run p c m = .ok (m', sendEvents p c (call.object p m) wsi (call.ready p m)) ∧
      Sent p c (call.object p m) wsi box (call.ready p m) m' := by
  have hready : Coupled (call.ready p m) box := h.congr rfl (fun _ => rfl)
  rw [Send.run_eq]
  exact send_spec p (call.object p m) hready hwsi

/-- What can be seen of `jrpc_connection_send`, in every state: the call, with the object as
it was, and perhaps a request to write. -/
theorem send_events {p : Platform} {c : Conn} {message_data : Option JsonRef} {m m' : Machine}
    {out : List Event} (h : jrpc_connection_send p c message_data m = .ok (m', out)) :
    m'.oom = later 1 m.oom ∧ ∃ message rest,
      out = .send c (message_data.bind m.json.read) message :: rest ∧
        (m.oom 0 = false → message.isSome) ∧ ∀ e ∈ rest, ∃ wsi, e = .on_writable wsi := by
  unfold jrpc_connection_send at h
  rw [create_spec] at h
  rcases hoom : m.oom 0 with _ | _
  · rw [hoom, if_neg Bool.false_ne_true] at h
    obtain ⟨⟨heap, q⟩, _, h⟩ := bind_eq_ok.mp h
    obtain ⟨⟨m1, o⟩, hw, h⟩ := bind_eq_ok.mp h
    cases h
    unfold lws_callback_on_writable at hw
    split at hw
    · cases hw
    · cases hw
      exact ⟨rfl, _, _, rfl, fun _ => rfl, by simp⟩
  · rw [hoom, if_pos rfl] at h
    cases h
    exact ⟨rfl, none, [], rfl, fun ht => (by cases ht), by simp⟩

/-- The message that is sent holds the text of its object, or nothing when this has no text. -/
theorem send_text {p : Platform} {c : Conn} {message_data : Option JsonRef} {m m' : Machine}
    {out : List Event} (h : jrpc_connection_send p c message_data m = .ok (m', out))
    {object : Option Json} {message : Addr × Bytes}
    (he : .send c object (some message) ∈ out) :
    message.2 = (object.bind p.lib.dumps).getD [] := by
  unfold jrpc_connection_send at h
  rw [create_spec] at h
  rcases hoom : m.oom 0 with _ | _
  · rw [hoom, if_neg Bool.false_ne_true] at h
    obtain ⟨⟨heap, q⟩, _, h⟩ := bind_eq_ok.mp h
    obtain ⟨⟨m1, o⟩, hw, h⟩ := bind_eq_ok.mp h
    cases h
    unfold lws_callback_on_writable at hw
    split at hw
    · cases hw
    · cases hw
      simp only [Arena.alloc_cells_next, Option.map_some, Option.getD_some, List.mem_cons,
        Event.send.injEq, Option.some.injEq, true_and, reduceCtorEq, List.not_mem_nil,
        or_false] at he
      obtain ⟨rfl, rfl⟩ := he
      simp [JrpcMessage.bytes, textOf, JsonStore.compact]
  · rw [hoom, if_pos rfl] at h
    cases h
    cases List.mem_singleton.mp he

/-- What can be seen of a call of user code. -/
theorem Send.run_events {p : Platform} {c : Conn} {call : Send} {m m' : Machine}
    {out : List Event} (h : call.run p c m = .ok (m', out)) :
    m'.oom = later (1 + call.allocations) m.oom ∧ ∃ message rest,
      out = .send c ((call.object p m).bind (call.ready p m).json.read) message :: rest ∧
        (m.oom call.allocations = false → message.isSome) ∧
        ∀ e ∈ rest, ∃ wsi, e = .on_writable wsi := by
  rw [Send.run_eq] at h
  obtain ⟨hoom, message, rest, hout, hmessage, hrest⟩ := send_events h
  refine ⟨?_, message, rest, hout, fun hfree => hmessage ?_, hrest⟩
  · rw [hoom]
    funext n
    simp [Send.ready, later, Nat.add_assoc]
  · simpa [Send.ready, later] using hfree

/-- `jrpc_connection_cleanup` disposes all messages of the queue, and leaves it empty. -/
theorem cleanup_connection_spec {c : Conn} {box : Conn → List (Addr × Bytes)} {m : Machine}
    (h : Coupled m box) :
    ∃ heap', jrpc_connection_cleanup c m =
        .ok (m.setQueue c heap' jrpc_queue_init, ((box c).map (·.1)).map .dispose) ∧
      Coupled (m.setQueue c heap' jrpc_queue_init) (Function.update box c []) ∧
      Balanced m.heap heap' (((box c).map (·.1)).map .dispose) := by
  obtain ⟨heap', hclean, hf⟩ := cleanup_spec (h.holds c)
  refine ⟨heap', ?_, ?_, ?_⟩
  · unfold jrpc_connection_cleanup
    rw [hclean, ok_bind]
  · apply coupled_setQueue h (holds_init heap')
    · intro d hd q hq
      apply hf.same
      intro hmem
      obtain ⟨q', hq', he⟩ := List.mem_map.mp hmem
      exact hd (h.apart d c q q' hq hq' he.symm)
    · intro d _ q hq
      simp at hq
    · intro a ha
      have hal : a ∉ (box c).map (·.1) := by
        intro hmem
        unfold Arena.Live at ha
        rw [hf.gone a hmem] at ha
        cases ha
      unfold Arena.Live at ha
      rw [hf.same a hal] at ha
      obtain ⟨d, hd⟩ := h.live a ha
      refine Or.inr ⟨d, ?_, hd⟩
      rintro rfl
      exact hal hd
  · apply balanced_free hf (h.holds c).chain.nodup
    · intro a ha
      obtain ⟨q, hq, rfl⟩ := List.mem_map.mp ha
      exact (h.holds c).live hq
    · simp [created, List.filterMap_map, Function.comp_def, createdBy]
    · simp [disposed, List.filterMap_map, Function.comp_def, disposedBy]

end jrpc.connection

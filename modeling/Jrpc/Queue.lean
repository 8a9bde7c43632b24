-- The message queue of a connection: a linked list through the messages themselves, with
-- a pointer to its first and to its last message. `Holds` says which messages a queue
-- holds, and each function of queue.c does to this list what its name says.
import Mathlib.Data.List.Perm.Subperm
import Jrpc.Chain
import Jrpc.Message

open heap chain
open jrpc.json jrpc.message

namespace jrpc.queue

structure JrpcQueue where
  first : Option Addr
  last : Option Addr

/-! ## The functions of queue.c -/

/-- `message->next`, for a message that is not gone. -/
def readNext (heap : MessageHeap) (message : Addr) : Except Fault (Option Addr) :=
  match heap.cells message with
  | some m => .ok m.next
  | none => .error .dangling

/-- `message->next = next`, for a message that is not gone. -/
def writeNext (heap : MessageHeap) (message : Addr) (next : Option Addr) :
    Except Fault MessageHeap :=
  if heap.Live message then .ok (heap.modify message fun m => { m with next })
  else .error .dangling

def jrpc_queue_init : JrpcQueue := ⟨none, none⟩

/-- The loop of `jrpc_queue_cleanup`, with the messages that it disposed. Each turn frees a
live message, so after as many turns as there are addresses no message is live. -/
def cleanupLoop : Nat → MessageHeap → Option Addr → Except Fault (MessageHeap × List Addr)
  | _, heap, none => .ok (heap, [])
  | 0, _, some _ => .error .dangling
  | turns + 1, heap, some message => do
    let next ← readNext heap message
    let heap ← jrpc_message_dispose heap message
    let (heap, disposed) ← cleanupLoop turns heap next
    .ok (heap, message :: disposed)

def jrpc_queue_cleanup (heap : MessageHeap) (queue : JrpcQueue) :
    Except Fault (MessageHeap × JrpcQueue × List Addr) := do
  let (heap, disposed) ← cleanupLoop heap.next heap queue.first
  .ok (heap, jrpc_queue_init, disposed)

def jrpc_queue_is_empty (queue : JrpcQueue) : Bool := queue.first.isNone

def jrpc_queue_append (heap : MessageHeap) (queue : JrpcQueue) (message : Addr) :
    Except Fault (MessageHeap × JrpcQueue) := do
  let heap ← writeNext heap message none
  match queue.last with
  | some last => do
    let heap ← writeNext heap last (some message)
    .ok (heap, { queue with last := some message })
  | none => .ok (heap, { first := some message, last := some message })

def jrpc_queue_dequeue (heap : MessageHeap) (queue : JrpcQueue) :
    Except Fault (Option Addr × JrpcQueue) :=
  match queue.first with
  | none => .ok (none, queue)
  | some result => do
    let first ← readNext heap result
    match first with
    | none => .ok (some result, { first := none, last := none })
    | some next => .ok (some result, { queue with first := some next })

/-! ## What a queue holds -/

def links (heap : MessageHeap) (a : Addr) : Option (Option Addr) :=
  (heap.cells a).map (·.next)

/-- The queue holds these messages, from the first to the last, with their bytes. -/
structure Holds (heap : MessageHeap) (queue : JrpcQueue) (l : List (Addr × Bytes)) : Prop where
  chain : Chain (links heap) queue.first (l.map (·.1))
  last : queue.last = (l.map (·.1)).getLast?
  bytes : ∀ p ∈ l, (heap.cells p.1).map (·.bytes) = some p.2

theorem Holds.live {heap : MessageHeap} {queue : JrpcQueue} {l : List (Addr × Bytes)}
    (h : Holds heap queue l) {p : Addr × Bytes} (hp : p ∈ l) : heap.Live p.1 := by
  have hb := h.bytes p hp
  rw [Option.map_eq_some_iff] at hb
  obtain ⟨m, hm, _⟩ := hb
  exact Arena.live_iff.mpr ⟨m, hm⟩

theorem holds_init (heap : MessageHeap) : Holds heap jrpc_queue_init [] :=
  ⟨rfl, rfl, by simp⟩

/-- An empty queue has two null pointers. -/
theorem Holds.nil_iff {heap : MessageHeap} {queue : JrpcQueue} :
    Holds heap queue [] ↔ queue = jrpc_queue_init := by
  constructor
  · intro h
    have h1 : queue.first = none := h.chain
    have h2 : queue.last = none := h.last
    obtain ⟨first, last⟩ := queue
    simp only at h1 h2
    rw [h1, h2]
    rfl
  · rintro rfl
    exact holds_init heap

/-- The pointers of the queue and the links decide the messages that it holds. -/
theorem Holds.unique {heap : MessageHeap} {queue : JrpcQueue} {l l' : List (Addr × Bytes)}
    (h : Holds heap queue l) (h' : Holds heap queue l') : l = l' := by
  have haddr := h.chain.unique h'.chain
  have hbytes : ∀ {k : List (Addr × Bytes)}, Holds heap queue k →
      k.map (fun p => some p.2) = (k.map (·.1)).map (fun a => (heap.cells a).map (·.bytes)) := by
    intro k hk
    rw [List.map_map]
    exact List.map_congr_left (fun p hp => (hk.bytes p hp).symm)
  have hsnd : l.map (fun p => some p.2) = l'.map (fun p => some p.2) := by
    rw [hbytes h, hbytes h', haddr]
  have hsnd' : l.map (·.2) = l'.map (·.2) := by
    have := congrArg (List.filterMap id) hsnd
    simpa [List.filterMap_map, Function.comp_def] using this
  exact (List.zip_of_prod haddr hsnd').trans (List.zip_of_prod rfl rfl).symm

/-- A queue does not change when no message of it does. -/
theorem Holds.congr {heap heap' : MessageHeap} {queue : JrpcQueue} {l : List (Addr × Bytes)}
    (h : Holds heap queue l) (hsame : ∀ p ∈ l, heap'.cells p.1 = heap.cells p.1) :
    Holds heap' queue l := by
  refine ⟨h.chain.congr ?_, h.last, ?_⟩
  · intro a ha
    obtain ⟨p, hp, rfl⟩ := List.mem_map.mp ha
    unfold links
    rw [hsame p hp]
  · intro p hp
    rw [hsame p hp]
    exact h.bytes p hp

/-! ## What the functions do to it -/

theorem readNext_of_links {heap : MessageHeap} {a : Addr} {p : Option Addr}
    (h : links heap a = some p) : readNext heap a = .ok p := by
  unfold links at h
  rw [Option.map_eq_some_iff] at h
  obtain ⟨m, hm, rfl⟩ := h
  simp [readNext, hm]

theorem writeNext_live {heap : MessageHeap} {a : Addr} (h : heap.Live a) (p : Option Addr) :
    writeNext heap a p = .ok (heap.modify a fun m => { m with next := p }) := by
  unfold writeNext
  rw [if_pos h]

theorem is_empty_iff {heap : MessageHeap} {queue : JrpcQueue} {l : List (Addr × Bytes)}
    (h : Holds heap queue l) : jrpc_queue_is_empty queue = l.isEmpty := by
  unfold jrpc_queue_is_empty
  rw [h.chain.head]
  cases l <;> rfl

/-- Only links changed from the first heap to the second one, and only links of messages in
the list. -/
structure Relinked (heap heap' : MessageHeap) (l : List Addr) : Prop where
  next : heap'.next = heap.next
  same : ∀ a, a ∉ l → heap'.cells a = heap.cells a
  bytes : ∀ a, (heap'.cells a).map (·.bytes) = (heap.cells a).map (·.bytes)

theorem Relinked.refl (heap : MessageHeap) (l : List Addr) : Relinked heap heap l :=
  ⟨rfl, fun _ _ => rfl, fun _ => rfl⟩

theorem Relinked.trans {h1 h2 h3 : MessageHeap} {l : List Addr} (h : Relinked h1 h2 l)
    (h' : Relinked h2 h3 l) : Relinked h1 h3 l where
  next := h'.next.trans h.next
  same a ha := (h'.same a ha).trans (h.same a ha)
  bytes a := (h'.bytes a).trans (h.bytes a)

theorem relinked_modify (heap : MessageHeap) {a : Addr} {l : List Addr} (ha : a ∈ l)
    (p : Option Addr) : Relinked heap (heap.modify a fun m => { m with next := p }) l where
  next := rfl
  same b hb := Arena.modify_cells_ne (fun he => hb (he ▸ ha))
  bytes b := by
    by_cases hba : b = a
    · subst b
      rw [Arena.modify_cells_self, Option.map_map]
      rfl
    · rw [Arena.modify_cells_ne hba]

/-- A relinked heap has the same live messages. -/
theorem Relinked.live {heap heap' : MessageHeap} {l : List Addr} (h : Relinked heap heap' l)
    (a : Addr) : heap'.Live a ↔ heap.Live a := by
  have hb := congrArg Option.isSome (h.bytes a)
  simp only [Option.isSome_map] at hb
  unfold Arena.Live
  rw [hb]

theorem links_modify_self {heap : MessageHeap} {a : Addr} (ha : heap.Live a)
    (p : Option Addr) : links (heap.modify a fun m => { m with next := p }) a = some p := by
  obtain ⟨m, hm⟩ := Arena.live_iff.mp ha
  unfold links
  rw [Arena.modify_cells_self, hm]
  rfl

theorem links_modify_ne {heap : MessageHeap} {a b : Addr} (hb : b ≠ a) (p : Option Addr) :
    links (heap.modify a fun m => { m with next := p }) b = links heap b := by
  unfold links
  rw [Arena.modify_cells_ne hb]

/-- `jrpc_queue_append` puts a live message of no queue at the end. Its old link, and the
links of the messages of other queues, do not matter. -/
theorem append_spec {heap : MessageHeap} {queue : JrpcQueue} {l : List (Addr × Bytes)}
    {m : Addr} {b : Bytes} (h : Holds heap queue l)
    (hm : (heap.cells m).map (·.bytes) = some b) (hfree : m ∉ l.map (·.1)) :
    ∃ heap' queue', jrpc_queue_append heap queue m = .ok (heap', queue') ∧
      Holds heap' queue' (l ++ [(m, b)]) ∧ Relinked heap heap' (m :: l.map (·.1)) := by
  have hlive : heap.Live m := by
    unfold Arena.Live
    rw [← Option.isSome_map, hm]
    rfl
  have hwrite := writeNext_live hlive none
  generalize hheap1 : (heap.modify m fun c => { c with next := none }) = heap1 at hwrite
  have hr1 : Relinked heap heap1 (m :: l.map (·.1)) := by
    rw [← hheap1]
    exact relinked_modify heap List.mem_cons_self none
  have hm1 : links heap1 m = some none := by
    rw [← hheap1]
    exact links_modify_self hlive none
  have hsame1 : ∀ a, a ≠ m → links heap1 a = links heap a := by
    intro a ha
    rw [← hheap1]
    exact links_modify_ne ha none
  have hbytes : ∀ heap', Relinked heap heap' (m :: l.map (·.1)) →
      ∀ p ∈ l ++ [(m, b)], (heap'.cells p.1).map (·.bytes) = some p.2 := by
    intro heap' hr p hp
    rw [hr.bytes]
    rcases List.mem_append.mp hp with hp | hp
    · exact h.bytes p hp
    · rw [List.mem_singleton.mp hp]
      exact hm
  rcases hl : queue.last with _ | z
  · -- the queue was empty, and the message is now its first and last one
    have hnil : l = [] := by
      have := h.last
      rw [hl] at this
      simpa using this.symm
    subst hnil
    refine ⟨heap1, ⟨some m, some m⟩, ?_, ⟨?_, rfl, hbytes heap1 hr1⟩, hr1⟩
    · unfold jrpc_queue_append
      rw [hwrite, ok_bind, hl]
    · exact ⟨rfl, none, hm1, rfl⟩
  · -- the last message before gets a link to the new one
    have hz : (l.map (·.1)).getLast? = some z := by rw [← h.last, hl]
    have hzmem : z ∈ l.map (·.1) := List.mem_of_getLast? hz
    have hzm : z ≠ m := fun he => hfree (he ▸ hzmem)
    have hzlive : heap1.Live z := by
      obtain ⟨p, hp, rfl⟩ := List.mem_map.mp hzmem
      exact (hr1.live _).mpr (h.live hp)
    have hwrite2 := writeNext_live hzlive (some m)
    generalize hheap2 : (heap1.modify z fun c => { c with next := some m }) = heap2 at hwrite2
    have hr2 : Relinked heap heap2 (m :: l.map (·.1)) := by
      rw [← hheap2]
      exact hr1.trans (relinked_modify heap1 (List.mem_cons_of_mem m hzmem) (some m))
    refine ⟨heap2, ⟨queue.first, some m⟩, ?_, ⟨?_, by simp, hbytes heap2 hr2⟩, hr2⟩
    · unfold jrpc_queue_append
      rw [hwrite, ok_bind, hl]
      simp only
      rw [hwrite2, ok_bind]
    · have hchain : Chain (links heap2) (l.map (·.1) ++ [m]).head? (l.map (·.1) ++ [m]) := by
        apply h.chain.snoc
        · rw [← hheap2, links_modify_ne hzm.symm, hm1]
        · intro z' hz'
          rw [hz] at hz'
          cases hz'
          rw [← hheap2, links_modify_self hzlive]
        · intro a ha hne
          have haz : a ≠ z := fun he => hne (he ▸ hz)
          have ham : a ≠ m := fun he => hfree (he ▸ ha)
          rw [← hheap2, links_modify_ne haz, hsame1 a ham]
      have hfirst : queue.first = (l.map (·.1) ++ [m]).head? := by
        rw [h.chain.head]
        cases l with
        | nil => simp at hzmem
        | cons p l => rfl
      rw [List.map_append, hfirst]
      exact hchain

/-- The queue writes nothing of a message but its link. -/
theorem writeNext_unlinked {heap heap' : MessageHeap} {m : Addr} {next : Option Addr}
    (h : writeNext heap m next = .ok heap') (a : Addr) :
    (heap'.cells a).map (·.unlinked) = (heap.cells a).map (·.unlinked) := by
  unfold writeNext at h
  split at h
  · cases h
    by_cases ha : a = m
    · subst ha
      rw [Arena.modify_cells_self, Option.map_map]
      rfl
    · rw [Arena.modify_cells_ne ha]
  · cases h

theorem append_unlinked {heap heap' : MessageHeap} {queue queue' : JrpcQueue} {m : Addr}
    (h : jrpc_queue_append heap queue m = .ok (heap', queue')) (a : Addr) :
    (heap'.cells a).map (·.unlinked) = (heap.cells a).map (·.unlinked) := by
  unfold jrpc_queue_append at h
  obtain ⟨heap1, hfirst, h⟩ := bind_eq_ok.mp h
  split at h
  · obtain ⟨heap2, hsecond, h⟩ := bind_eq_ok.mp h
    cases h
    rw [writeNext_unlinked hsecond, writeNext_unlinked hfirst]
  · cases h
    exact writeNext_unlinked hfirst a

theorem dequeue_nil {heap : MessageHeap} {queue : JrpcQueue} (h : Holds heap queue []) :
    jrpc_queue_dequeue heap queue = .ok (none, queue) := by
  rw [Holds.nil_iff.mp h]
  rfl

/-- `jrpc_queue_dequeue` takes the first message, and changes no message. -/
theorem dequeue_cons {heap : MessageHeap} {queue : JrpcQueue} {p : Addr × Bytes}
    {l : List (Addr × Bytes)} (h : Holds heap queue (p :: l)) :
    ∃ queue', jrpc_queue_dequeue heap queue = .ok (some p.1, queue') ∧ Holds heap queue' l := by
  obtain ⟨hfirst, q, hq, hrest⟩ := h.chain
  have hread := readNext_of_links hq
  have hbytes : ∀ p' ∈ l, (heap.cells p'.1).map (·.bytes) = some p'.2 :=
    fun p' hp' => h.bytes p' (List.mem_cons_of_mem p hp')
  cases l with
  | nil =>
    have hqn : q = none := hrest
    subst hqn
    refine ⟨jrpc_queue_init, ?_, holds_init heap⟩
    unfold jrpc_queue_dequeue
    rw [hfirst]
    simp only [hread, ok_bind]
    rfl
  | cons p2 l =>
    have hq2 : q = some p2.1 := hrest.head
    subst hq2
    refine ⟨⟨some p2.1, queue.last⟩, ?_, ⟨hrest, ?_, hbytes⟩⟩
    · unfold jrpc_queue_dequeue
      rw [hfirst]
      simp only [hread, ok_bind]
    · rw [h.last]
      simp

/-- The messages of the list are gone, and nothing else changed. -/
structure Freed (heap heap' : MessageHeap) (l : List Addr) : Prop where
  next : heap'.next = heap.next
  gone : ∀ a ∈ l, heap'.cells a = none
  same : ∀ a, a ∉ l → heap'.cells a = heap.cells a

theorem freed_one (heap : MessageHeap) (a : Addr) : Freed heap (heap.free a) [a] where
  next := rfl
  gone b hb := by
    rw [List.mem_singleton.mp hb]
    exact Arena.free_cells_self heap a
  same b hb := Arena.free_cells_ne (fun he => hb (List.mem_singleton.mpr he))

theorem Freed.cons {h1 h2 h3 : MessageHeap} {a : Addr} {l : List Addr} (h : Freed h1 h2 [a])
    (h' : Freed h2 h3 l) : Freed h1 h3 (a :: l) where
  next := h'.next.trans h.next
  gone b hb := by
    by_cases hbl : b ∈ l
    · exact h'.gone b hbl
    · rw [h'.same b hbl]
      rcases List.mem_cons.mp hb with rfl | hb
      · exact h.gone b List.mem_cons_self
      · exact absurd hb hbl
  same b hb := by
    have hb1 : b ∉ l := fun h => hb (List.mem_cons_of_mem a h)
    have hb2 : b ∉ [a] := fun h => hb (List.mem_singleton.mp h ▸ List.mem_cons_self)
    rw [h'.same b hb1, h.same b hb2]

/-- The loop of `jrpc_queue_cleanup` disposes each message of the chain once. The addresses
below `turns` are enough for it, as each of them is disposed at most once. -/
theorem cleanupLoop_spec {l : List Addr} {heap : MessageHeap} {p : Option Addr} {turns : Nat}
    (h : Chain (links heap) p l) (hturns : l.length ≤ turns) :
    ∃ heap', cleanupLoop turns heap p = .ok (heap', l) ∧ Freed heap heap' l := by
  induction l generalizing heap p turns with
  | nil =>
    have hp : p = none := h
    subst hp
    refine ⟨heap, ?_, rfl, by simp, fun _ _ => rfl⟩
    cases turns <;> rfl
  | cons a l ih =>
    have hnodup := List.nodup_cons.mp h.nodup
    obtain ⟨rfl, q, hq, hrest⟩ := h
    obtain ⟨n, rfl⟩ : ∃ n, turns = n + 1 := ⟨turns - 1, by simp at hturns; omega⟩
    have hlive : heap.Live a := by
      unfold links at hq
      rw [Option.map_eq_some_iff] at hq
      obtain ⟨m, hm, _⟩ := hq
      exact Arena.live_iff.mpr ⟨m, hm⟩
    have hsame : ∀ b ∈ l, links (heap.free a) b = links heap b := by
      intro b hb
      unfold links
      have hba : b ≠ a := fun he => hnodup.1 (he ▸ hb)
      rw [Arena.free_cells_ne hba]
    obtain ⟨heap', hloop, hfreed⟩ := ih (hrest.congr hsame) (by simpa using hturns)
    refine ⟨heap', ?_, (freed_one heap a).cons hfreed⟩
    unfold cleanupLoop
    rw [readNext_of_links hq, ok_bind, message.dispose_live hlive, ok_bind, hloop, ok_bind]

/-- A queue holds no more messages than there are addresses. -/
theorem Holds.length_le {heap : MessageHeap} {queue : JrpcQueue} {l : List (Addr × Bytes)}
    (h : Holds heap queue l) : (l.map (·.1)).length ≤ heap.next := by
  have hsub : l.map (·.1) ⊆ List.range heap.next := by
    intro a ha
    obtain ⟨p, hp, rfl⟩ := List.mem_map.mp ha
    obtain ⟨m, hm⟩ := Arena.live_iff.mp (h.live hp)
    exact List.mem_range.mpr (Arena.lt_next_of_cell hm)
  simpa using (List.subperm_of_subset h.chain.nodup hsub).length_le

/-- `jrpc_queue_cleanup` disposes each message of the queue once, and leaves it empty. -/
theorem cleanup_spec {heap : MessageHeap} {queue : JrpcQueue} {l : List (Addr × Bytes)}
    (h : Holds heap queue l) :
    ∃ heap', jrpc_queue_cleanup heap queue = .ok (heap', jrpc_queue_init, l.map (·.1)) ∧
      Freed heap heap' (l.map (·.1)) := by
  obtain ⟨heap', hloop, hfreed⟩ := cleanupLoop_spec h.chain h.length_le
  refine ⟨heap', ?_, hfreed⟩
  unfold jrpc_queue_cleanup
  rw [hloop, ok_bind]

end jrpc.queue

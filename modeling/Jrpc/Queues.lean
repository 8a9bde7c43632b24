-- Any number of queues in one memory. Each queue stands for a list of messages, and whatever
-- is done to the queues, in any order, does to these lists what the names of the functions
-- say. A queue is never hurt by what is done to another one.
import Mathlib.Logic.Function.Basic
import Jrpc.Runs
import Jrpc.Queue

open heap chain runs
open jrpc.json jrpc.message

namespace jrpc.queue

variable {Q : Type} [DecidableEq Q]

/-! ## Queues in one memory -/

structure Queues (Q : Type) where
  heap : MessageHeap
  queueOf : Q → JrpcQueue

/-- One call of a function of queue.c. -/
inductive Op (Q : Type)
  | append (queue : Q) (message : Addr)
  | dequeue (queue : Q)
  | is_empty (queue : Q)
  | cleanup (queue : Q)

/-- What a call gives back, and for a cleanup the messages that it disposed. -/
inductive Answer
  | dequeued (message : Option Addr)
  | is_empty (answer : Bool)
  | disposed (messages : List Addr)
  deriving DecidableEq

def Queues.set (s : Queues Q) (q : Q) (heap : MessageHeap) (queue : JrpcQueue) : Queues Q :=
  { heap, queueOf := Function.update s.queueOf q queue }

def queueStep (s : Queues Q) : Op Q → Except Fault (Queues Q × List Answer)
  | .append q message => do
    let (heap, queue) ← jrpc_queue_append s.heap (s.queueOf q) message
    .ok (s.set q heap queue, [])
  | .dequeue q => do
    let (message, queue) ← jrpc_queue_dequeue s.heap (s.queueOf q)
    .ok (s.set q s.heap queue, [.dequeued message])
  | .is_empty q => .ok (s, [.is_empty (jrpc_queue_is_empty (s.queueOf q))])
  | .cleanup q => do
    let (heap, queue, disposed) ← jrpc_queue_cleanup s.heap (s.queueOf q)
    .ok (s.set q heap queue, [.disposed disposed])

/-! ## Lists of messages -/

/-- What the queues stand for: a list for each of them, and the messages that are not gone. -/
structure Lists (Q : Type) where
  list : Q → List Addr
  live : Addr → Prop

/-- Only a message that is not gone and is in no list may be put into one. -/
def Lists.Allowed (a : Lists Q) : Op Q → Prop
  | .append _ message => a.live message ∧ ∀ q, message ∉ a.list q
  | _ => True

def Lists.set (a : Lists Q) (q : Q) (l : List Addr) : Lists Q :=
  { a with list := Function.update a.list q l }

def listStep (a : Lists Q) : Op Q → Lists Q × List Answer
  | .append q message => (a.set q (a.list q ++ [message]), [])
  | .dequeue q => (a.set q (a.list q).tail, [.dequeued (a.list q).head?])
  | .is_empty q => (a, [.is_empty (a.list q).isEmpty])
  | .cleanup q =>
    ({ a.set q [] with live := fun m => a.live m ∧ m ∉ a.list q }, [.disposed (a.list q)])

def listRun (a : Lists Q) : List (Op Q) → Lists Q × List Answer
  | [] => (a, [])
  | op :: ops =>
    let (a, answers) := listStep a op
    ((listRun a ops).1, answers ++ (listRun a ops).2)

def AllAllowed (a : Lists Q) : List (Op Q) → Prop
  | [] => True
  | op :: ops => a.Allowed op ∧ AllAllowed (listStep a op).1 ops

/-! ## What a queue stands for -/

/-- From `first` on, the links visit the messages of the list and end in NULL, and `last` is
the last one of them. A list that is visited so has no message twice. -/
structure Represents (heap : MessageHeap) (queue : JrpcQueue) (l : List Addr) : Prop where
  chain : Chain (links heap) queue.first l
  distinct : l.Nodup
  last : queue.last = l.getLast?

/-- The messages with their bytes. -/
def withBytes (heap : MessageHeap) (l : List Addr) : List (Addr × Bytes) :=
  l.map fun a => (a, ((heap.cells a).map (·.bytes)).getD [])

theorem withBytes_fst (heap : MessageHeap) (l : List Addr) : (withBytes heap l).map (·.1) = l := by
  unfold withBytes
  rw [List.map_map]
  exact List.map_id l

theorem withBytes_cons (heap : MessageHeap) (a : Addr) (l : List Addr) :
    withBytes heap (a :: l) =
      (a, ((heap.cells a).map (·.bytes)).getD []) :: withBytes heap l := rfl

theorem live_of_links {heap : MessageHeap} {a : Addr} {p : Option Addr}
    (h : links heap a = some p) : heap.Live a := by
  unfold links at h
  obtain ⟨m, hm, _⟩ := Option.map_eq_some_iff.mp h
  exact Arena.live_iff.mpr ⟨m, hm⟩

theorem Represents.live {heap : MessageHeap} {queue : JrpcQueue} {l : List Addr}
    (h : Represents heap queue l) : ∀ a ∈ l, heap.Live a := by
  intro a ha
  obtain ⟨p, hp⟩ := h.chain.live a ha
  exact live_of_links hp

theorem Represents.holds {heap : MessageHeap} {queue : JrpcQueue} {l : List Addr}
    (h : Represents heap queue l) : Holds heap queue (withBytes heap l) := by
  refine ⟨?_, ?_, ?_⟩
  · rw [withBytes_fst]
    exact h.chain
  · rw [withBytes_fst]
    exact h.last
  · intro p hp
    obtain ⟨a, ha, rfl⟩ := List.mem_map.mp hp
    obtain ⟨m, hm⟩ := Arena.live_iff.mp (h.live a ha)
    simp [hm]

theorem Holds.represents {heap : MessageHeap} {queue : JrpcQueue} {l : List (Addr × Bytes)}
    (h : Holds heap queue l) : Represents heap queue (l.map (·.1)) :=
  ⟨h.chain, h.chain.nodup, h.last⟩

theorem Represents.congr {heap heap' : MessageHeap} {queue : JrpcQueue} {l : List Addr}
    (h : Represents heap queue l) (hsame : ∀ a ∈ l, heap'.cells a = heap.cells a) :
    Represents heap' queue l := by
  refine ⟨h.chain.congr ?_, h.distinct, h.last⟩
  intro a ha
  unfold links
  rw [hsame a ha]

/-! ## Queues that stand for lists -/

/-- Each queue represents its list, no message is in two lists, and the same messages are
gone. -/
structure Stands (s : Queues Q) (a : Lists Q) : Prop where
  represents : ∀ q, Represents s.heap (s.queueOf q) (a.list q)
  apart : ∀ q q', q ≠ q' → ∀ m ∈ a.list q, m ∉ a.list q'
  live : ∀ m, a.live m ↔ s.heap.Live m

/-- One queue has a new list, and the memory of the others is as it was. -/
theorem Stands.set {s : Queues Q} {a : Lists Q} (h : Stands s a) {q : Q} {heap : MessageHeap}
    {queue : JrpcQueue} {l : List Addr} {live : Addr → Prop} (hq : Represents heap queue l)
    (hsame : ∀ q', q' ≠ q → ∀ m ∈ a.list q', heap.cells m = s.heap.cells m)
    (hnew : ∀ m ∈ l, m ∈ a.list q ∨ ∀ q', m ∉ a.list q')
    (hlive : ∀ m, live m ↔ heap.Live m) :
    Stands (s.set q heap queue) { a.set q l with live } := by
  have hother : ∀ q', q' ≠ q → ∀ m ∈ l, m ∉ a.list q' := by
    intro q' hq' m hm
    rcases hnew m hm with hm | hm
    · exact h.apart q q' (Ne.symm hq') m hm
    · exact hm q'
  refine ⟨?_, ?_, hlive⟩
  · intro q'
    by_cases hq' : q' = q
    · subst q'
      simpa [Queues.set, Lists.set] using hq
    · simp only [Queues.set, Lists.set, Function.update_of_ne hq']
      exact (h.represents q').congr (hsame q' hq')
  · intro q1 q2 hne m hm
    simp only [Lists.set] at hm ⊢
    by_cases h1 : q1 = q
    · subst q1
      rw [Function.update_self] at hm
      rw [Function.update_of_ne (Ne.symm hne)]
      exact hother q2 (Ne.symm hne) m hm
    · rw [Function.update_of_ne h1] at hm
      by_cases h2 : q2 = q
      · subst q2
        rw [Function.update_self]
        intro hml
        exact hother q1 h1 m hml hm
      · rw [Function.update_of_ne h2]
        exact h.apart q1 q2 hne m hm

theorem append_stands {s : Queues Q} {a : Lists Q} (h : Stands s a) {q : Q} {m : Addr}
    (hlive : a.live m) (hfree : ∀ q, m ∉ a.list q) :
    ∃ s', queueStep s (.append q m) = .ok (s', []) ∧ Stands s' (a.set q (a.list q ++ [m])) := by
  have hq := (h.represents q).holds
  obtain ⟨cell, hcell⟩ := Arena.live_iff.mp ((h.live m).mp hlive)
  have hm : (s.heap.cells m).map (·.bytes) = some cell.bytes := by rw [hcell]; rfl
  have hmfree : m ∉ (withBytes s.heap (a.list q)).map (·.1) := by
    rw [withBytes_fst]
    exact hfree q
  obtain ⟨heap, queue, happend, hholds, hr⟩ := append_spec hq hm hmfree
  have hrep := hholds.represents
  rw [List.map_append, withBytes_fst] at hrep
  rw [withBytes_fst] at hr
  refine ⟨s.set q heap queue, ?_, h.set hrep ?_ ?_ ?_⟩
  · simp only [queueStep, happend, ok_bind]
  · intro q' hq' x hx
    apply hr.same
    intro hmem
    rcases List.mem_cons.mp hmem with rfl | hmem
    · exact hfree q' hx
    · exact h.apart q' q hq' x hx hmem
  · intro x hx
    rcases List.mem_append.mp hx with hx | hx
    · exact .inl hx
    · rw [List.mem_singleton.mp hx]
      exact .inr hfree
  · intro x
    rw [hr.live]
    exact h.live x

/-- The first message is taken. From an empty queue nothing is, and it does not change. -/
theorem dequeue_stands {s : Queues Q} {a : Lists Q} (h : Stands s a) (q : Q) :
    ∃ s', queueStep s (.dequeue q) = .ok (s', [.dequeued (a.list q).head?]) ∧
      Stands s' (a.set q (a.list q).tail) := by
  have hq := (h.represents q).holds
  rcases hl : a.list q with _ | ⟨m, l⟩
  · rw [hl] at hq
    refine ⟨s.set q s.heap (s.queueOf q), ?_, h.set ?_ (fun _ _ _ _ => rfl) ?_ h.live⟩
    · simp [queueStep, dequeue_nil hq]
    · have hrep := h.represents q
      rw [hl] at hrep
      exact hrep
    · intro x hx
      cases hx
  · rw [hl, withBytes_cons] at hq
    obtain ⟨queue, hdequeue, hholds⟩ := dequeue_cons hq
    have hrep := hholds.represents
    rw [withBytes_fst] at hrep
    refine ⟨s.set q s.heap queue, ?_, h.set hrep (fun _ _ _ _ => rfl) ?_ h.live⟩
    · simp [queueStep, hdequeue]
    · rw [hl]
      exact fun x hx => .inl (List.mem_cons_of_mem m hx)

/-- All messages of the queue are gone, and no other ones. -/
theorem cleanup_stands {s : Queues Q} {a : Lists Q} (h : Stands s a) (q : Q) :
    ∃ s', queueStep s (.cleanup q) = .ok (s', [.disposed (a.list q)]) ∧
      Stands s' { a.set q [] with live := fun m => a.live m ∧ m ∉ a.list q } := by
  have hq := (h.represents q).holds
  obtain ⟨heap, hcleanup, hfreed⟩ := cleanup_spec hq
  rw [withBytes_fst] at hcleanup hfreed
  refine ⟨s.set q heap jrpc_queue_init, ?_, h.set (holds_init heap).represents ?_ ?_ ?_⟩
  · simp only [queueStep, hcleanup, ok_bind]
  · intro q' hq' x hx
    exact hfreed.same x (h.apart q' q hq' x hx)
  · intro x hx
    cases hx
  · intro x
    rw [h.live]
    unfold Arena.Live
    by_cases hx : x ∈ a.list q
    · simp [hfreed.gone x hx, hx]
    · simp [hfreed.same x hx, hx]

/-- An allowed call ends well, answers as the list does, and the queues stand for the new
lists. -/
theorem step_stands {s : Queues Q} {a : Lists Q} (h : Stands s a) {op : Op Q}
    (hop : a.Allowed op) :
    ∃ s', queueStep s op = .ok (s', (listStep a op).2) ∧ Stands s' (listStep a op).1 := by
  cases op with
  | append q m =>
    obtain ⟨hlive, hfree⟩ := hop
    exact append_stands h hlive hfree
  | dequeue q => exact dequeue_stands h q
  | is_empty q =>
    refine ⟨s, ?_, h⟩
    have hq := (h.represents q).holds
    cases hl : a.list q <;> simp [queueStep, is_empty_iff hq, listStep, hl, withBytes]
  | cleanup q => exact cleanup_stands h q

/-- Every sequence of allowed calls ends well, with the answers of the lists. -/
theorem run_stands {s : Queues Q} {a : Lists Q} (h : Stands s a) {ops : List (Op Q)}
    (hops : AllAllowed a ops) :
    ∃ s', run queueStep s ops = .ok (s', (listRun a ops).2) ∧ Stands s' (listRun a ops).1 := by
  induction ops generalizing s a with
  | nil => exact ⟨s, rfl, h⟩
  | cons op ops ih =>
    obtain ⟨hop, hrest⟩ := hops
    obtain ⟨s1, hstep, h1⟩ := step_stands h hop
    obtain ⟨s2, hrun, h2⟩ := ih h1 hrest
    refine ⟨s2, ?_, h2⟩
    apply run_cons_ok.mpr
    exact ⟨s1, _, _, hstep, hrun, rfl⟩

/-! ## From empty queues on -/

/-- All queues are new, and the messages of the memory are in none of them. -/
def newQueues (heap : MessageHeap) : Queues Q := ⟨heap, fun _ => jrpc_queue_init⟩

def newLists (heap : MessageHeap) : Lists Q := ⟨fun _ => [], heap.Live⟩

omit [DecidableEq Q] in
theorem new_stands (heap : MessageHeap) : Stands (newQueues heap : Queues Q) (newLists heap) where
  represents _ := (holds_init heap).represents
  apart _ _ _ m hm := by cases hm
  live _ := Iff.rfl

/-- From new queues on, every sequence of calls ends well and answers as the lists do, as long
as only messages that are not gone and that are in no queue are appended. Then each queue
stands for its list, and only the messages are gone that a cleanup disposed. An empty queue
gives NULL and does not change, and a queue that is cleaned up disposes its messages once
each and is empty. -/
theorem queues_refine_lists (heap : MessageHeap) {ops : List (Op Q)}
    (hops : AllAllowed (newLists heap) ops) :
    ∃ s, run queueStep (newQueues heap) ops = .ok (s, (listRun (newLists heap) ops).2) ∧
      (∀ q, Represents s.heap (s.queueOf q) ((listRun (newLists heap) ops).1.list q) ∧
        jrpc_queue_is_empty (s.queueOf q) = ((listRun (newLists heap) ops).1.list q).isEmpty ∧
        ((listRun (newLists heap) ops).1.list q = [] →
          jrpc_queue_dequeue s.heap (s.queueOf q) = .ok (none, s.queueOf q)) ∧
        ∃ heap', jrpc_queue_cleanup s.heap (s.queueOf q) = .ok (heap', jrpc_queue_init,
            (listRun (newLists heap) ops).1.list q) ∧
          Freed s.heap heap' ((listRun (newLists heap) ops).1.list q)) ∧
      ∀ m, (listRun (newLists heap) ops).1.live m ↔ s.heap.Live m := by
  obtain ⟨s, hrun, h⟩ := run_stands (new_stands heap) hops
  refine ⟨s, hrun, ?_, h.live⟩
  intro q
  have hq := (h.represents q).holds
  have hempty := is_empty_iff hq
  have hcleanup := cleanup_spec hq
  rw [withBytes_fst] at hcleanup
  refine ⟨h.represents q, ?_, ?_, hcleanup⟩
  · rw [hempty]
    simp [withBytes]
  · intro hl
    rw [hl] at hq
    exact dequeue_nil hq

/-- Two messages with links that are out of date. -/
def twoMessages : MessageHeap :=
  (Arena.empty.alloc ⟨some 7, 40, 0, 40, []⟩).alloc ⟨some 7, 40, 0, 40, []⟩

/-- A message goes from one queue to another one and back to the first, which was cleaned up
in between. -/
def passOn : List (Op Bool) :=
  [.append true 0, .append true 1, .dequeue true, .append false 0, .cleanup true,
    .is_empty true, .dequeue false, .append true 0]

theorem queues_refine_lists_sample :
    AllAllowed (newLists twoMessages) passOn ∧
      ∃ s, run queueStep (newQueues twoMessages) passOn = .ok (s, [.dequeued (some 0),
          .disposed [1], .is_empty true, .dequeued (some 0)]) ∧
        Represents s.heap (s.queueOf true) [0] ∧ Represents s.heap (s.queueOf false) [] := by
  have hallowed : AllAllowed (newLists twoMessages) passOn := by
    have hlive : twoMessages.Live 0 ∧ twoMessages.Live 1 := by decide
    simp [passOn, AllAllowed, Lists.Allowed, listStep, Lists.set, newLists, hlive,
      Function.update_apply]
  obtain ⟨s, hrun, hqueues, _⟩ := queues_refine_lists twoMessages hallowed
  exact ⟨hallowed, s, hrun, (hqueues true).1, (hqueues false).1⟩

end jrpc.queue

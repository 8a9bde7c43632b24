-- A value that has no text. Printing it fails, and the length 0 that stands for the failure
-- is taken for the length of a text, so an empty message is created and sent. A message
-- holds the whole text of its value just when the value has one, and its block has the size
-- that was meant.
import Jrpc.Cycles
import Jrpc.Delivery
import Jrpc.Layout

open heap runs
open jrpc.json jrpc.message jrpc.queue jrpc.connection jrpc.protocol

namespace jrpc.service

variable {H : Type}

/-! ## Values that can be dumped -/

/-- The JSON library finds a text for the value. -/
def Dumpable (lib : JsonLib) (s : JsonStore) (value : Option JsonRef) : Prop :=
  ∃ r v text, value = some r ∧ s.read r = some v ∧ lib.dumps v = some text

theorem dumpable_iff {lib : JsonLib} {s : JsonStore} {value : Option JsonRef} :
    Dumpable lib s value ↔ ∃ text, s.compact lib value = some text := by
  unfold Dumpable JsonStore.compact
  simp only [Option.bind_eq_some_iff]
  constructor
  · rintro ⟨r, v, text, hr, hv, ht⟩
    exact ⟨text, v, ⟨r, hr, hv⟩, ht⟩
  · rintro ⟨text, v, ⟨r, hr, hv⟩, ht⟩
    exact ⟨r, v, text, hr, hv, ht⟩

/-- No value, a value that contains itself, or a value for which the library has no text. -/
theorem not_dumpable_iff {lib : JsonLib} {s : JsonStore} {value : Option JsonRef}
    (hs : s.Closed) (hvalue : LiveArg s value) :
    ¬ Dumpable lib s value ↔ value = none ∨ (∃ r, value = some r ∧ ContainsItself s r) ∨
      ∃ r v, value = some r ∧ s.read r = some v ∧ lib.dumps v = none := by
  cases value with
  | none => simp [Dumpable]
  | some r =>
    have hcycle := read_none_iff hs (hvalue : s.Live r)
    rcases hv : s.read r with _ | v
    · simp [Dumpable, hv, hcycle.mp hv]
    · have hno : ¬ ContainsItself s r := by
        rw [← hcycle, hv]
        simp
      rcases ht : lib.dumps v with _ | text
      · simp [Dumpable, hv, ht]
      · simp [Dumpable, hv, ht, hno]

/-! ## Whole texts -/

/-- What `jrpc_message_create` gives is NULL, or it is a message with the whole text, which lies
in its block. -/
def CreatesWhole (p : Platform) (value : Option JsonRef) (m : Machine) : Prop :=
  ∀ heap' message,
    jrpc_message_create p.lib p.abi (m.oom 0) m.json value m.heap = (heap', some message) →
      ∃ cell text, heap'.cells message = some cell ∧ m.json.compact p.lib value = some text ∧
        cell.length ≠ 0 ∧ cell.bytes = text ∧ LaidOut p.abi text.length cell

/-- `jrpc_connection_send` puts the whole text into the queue, in a block with room for it, or it
leaves the queue as it was. A value that cannot be dumped changes neither the queue nor the
request to write. -/
def SendsWhole (p : Platform) (c : Conn) (value : Option JsonRef) (m : Machine) : Prop :=
  ∃ m' out l l', jrpc_connection_send p c value m = .ok (m', out) ∧
    Holds m.heap (m.conns c).messages l ∧ Holds m'.heap (m'.conns c).messages l' ∧
    (l' = l ∨ ∃ message text cell, l' = l ++ [(message, text)] ∧ text ≠ [] ∧
      m.json.compact p.lib value = some text ∧ m'.heap.cells message = some cell ∧
      LaidOut p.abi text.length cell) ∧
    (¬ Dumpable p.lib m.json value → l' = l ∧ m'.pending = m.pending)

/-- The library prints no value as the empty text, as an empty text is the sign of a failure. -/
def PrintsText (lib : JsonLib) : Prop := ∀ v text, lib.dumps v = some text → text ≠ []

/-- The size of the block of the value fits into a `size_t`. -/
def RoomFor (p : Platform) (value : Option JsonRef) (m : Machine) : Prop :=
  p.abi.sizeof_message + p.abi.lws_pre + jrpc_message_measure p.lib m.json value <
    2 ^ p.abi.size_bits

/-- The message that is created for a value with a text. -/
theorem create_text {p : Platform} {value : Option JsonRef} {m : Machine} {text : Bytes}
    (htext : m.json.compact p.lib value = some text) (hoom : m.oom 0 = false) :
    ∃ cell, jrpc_message_create p.lib p.abi (m.oom 0) m.json value m.heap =
        (m.heap.alloc cell, some m.heap.next) ∧
      cell.length = text.length ∧ cell.bytes = text ∧
      (LaidOut p.abi text.length cell ↔ RoomFor p value m) := by
  have hmeasure : jrpc_message_measure p.lib m.json value = text.length := by
    simp [measure_eq, textOf, htext]
  have hcreate := create_spec p.lib p.abi (m.oom 0) m.json value m.heap
  rw [hoom, if_neg Bool.false_ne_true] at hcreate
  obtain ⟨hdata, hlength, hblock, hpayload⟩ :=
    created_cell hcreate (Arena.alloc_cells_next _ _)
  rw [hoom]
  refine ⟨_, hcreate, hlength.trans hmeasure, ?_, ?_⟩
  · simp [JrpcMessage.bytes, textOf, htext]
  · unfold RoomFor
    rw [← hmeasure]
    exact laidOut_iff hdata hlength hblock hpayload

theorem text_ne_nil {p : Platform} (hlib : PrintsText p.lib) {value : Option JsonRef}
    {s : JsonStore} {text : Bytes} (h : s.compact p.lib value = some text) : text ≠ [] := by
  obtain ⟨v, _, hv⟩ := Option.bind_eq_some_iff.mp h
  exact hlib v text hv

/-- A message that was created for a value with no text is empty, and one whose size was cut off
has no room for its text. -/
theorem createsWhole_iff {p : Platform} (hlib : PrintsText p.lib) (value : Option JsonRef)
    (m : Machine) :
    CreatesWhole p value m ↔
      (Dumpable p.lib m.json value ∧ RoomFor p value m) ∨ m.oom 0 = true := by
  unfold CreatesWhole
  rcases hoom : m.oom 0 with _ | _
  · simp only [Bool.false_eq_true, or_false]
    constructor
    · intro h
      have hcreate := create_spec p.lib p.abi false m.json value m.heap
      rw [if_neg Bool.false_ne_true] at hcreate
      obtain ⟨_, text, hcell, htext, _, _, hlaid⟩ := h _ _ hcreate
      obtain ⟨cell', hcreate', _, _, hiff⟩ := create_text htext hoom
      rw [hoom, hcreate, Prod.mk.injEq] at hcreate'
      rw [hcreate'.1, Arena.alloc_cells_next] at hcell
      cases hcell
      exact ⟨dumpable_iff.mpr ⟨text, htext⟩, hiff.mp hlaid⟩
    · rintro ⟨hdump, hroom⟩ heap' message hcreate
      obtain ⟨text, htext⟩ := dumpable_iff.mp hdump
      obtain ⟨cell, hcreate', hlength, hbytes, hiff⟩ := create_text htext hoom
      rw [hoom, hcreate] at hcreate'
      cases hcreate'
      refine ⟨cell, text, Arena.alloc_cells_next _ _, htext, ?_, hbytes, hiff.mpr hroom⟩
      rw [hlength]
      exact fun he => text_ne_nil hlib htext (List.length_eq_zero_iff.mp he)
  · simp only [or_true, iff_true]
    intro heap' message hcreate
    rw [create_spec, if_pos rfl] at hcreate
    cases hcreate

/-- The message in the queue is the one that was created, but for its link. -/
theorem send_cell {p : Platform} {c : Conn} {value : Option JsonRef} {m m' : Machine}
    {out : List Event} {x : JrpcMessage} (h : jrpc_connection_send p c value m = .ok (m', out))
    (hcreate : jrpc_message_create p.lib p.abi (m.oom 0) m.json value m.heap =
      (m.heap.alloc x, some m.heap.next)) :
    ∃ cell, m'.heap.cells m.heap.next = some cell ∧ cell.unlinked = x.unlinked := by
  unfold jrpc_connection_send at h
  rw [hcreate] at h
  obtain ⟨⟨heap, q⟩, happend, h⟩ := bind_eq_ok.mp h
  obtain ⟨⟨m1, o⟩, hw, h⟩ := bind_eq_ok.mp h
  cases h
  have hheap : m1.heap = heap := by
    unfold lws_callback_on_writable at hw
    split at hw
    · cases hw
    · cases hw
      rfl
  have hcell := append_unlinked happend m.heap.next
  rw [Arena.alloc_cells_next, Option.map_some] at hcell
  obtain ⟨cell, hcell, hx⟩ := Option.map_eq_some_iff.mp hcell
  exact ⟨cell, by rw [← hcell, ← hheap], hx⟩

/-- In a state that a run reaches, a value with a text and a block for it is sent as a whole or
not at all. -/
theorem sendsWhole {env : Env H} {w : World H} {b : outbox.Outbox Conn (Addr × Bytes)}
    (h : Refines env w b) {c : Conn} (hc : w.phase c = .established)
    (hlib : PrintsText env.platform.lib) {value : Option JsonRef}
    (hvalue : (Dumpable env.platform.lib w.mach.json value ∧ RoomFor env.platform value w.mach) ∨
      w.mach.oom 0 = true) :
    SendsWhole env.platform c value w.mach := by
  obtain ⟨m', hrun, hs⟩ := send_spec env.platform value h.coupled (h.socket c hc)
  have hholds := hs.coupled.holds c
  rw [Function.update_self] at hholds
  have hpending := hs.pending
  refine ⟨m', _, _, _, hrun, h.coupled.holds c, hholds, ?_, ?_⟩
  · rcases hoom : w.mach.oom 0 with _ | _
    · obtain ⟨hdump, hroom⟩ := hvalue.resolve_right (by simp [hoom])
      obtain ⟨text, htext⟩ := dumpable_iff.mp hdump
      obtain ⟨x, hcreate, _, _, hiff⟩ := create_text htext hoom
      obtain ⟨cell, hcell, hx⟩ := send_cell hrun hcreate
      right
      refine ⟨w.mach.heap.next, text, cell, ?_, text_ne_nil hlib htext, htext, hcell,
        (hiff.mpr hroom).relink hx⟩
      simp [newMessage, hoom, textOf, htext]
    · left
      simp [newMessage, hoom]
  · intro hno
    have hoom := hvalue.resolve_left fun hd => hno hd.1
    have hnone : newMessage env.platform value w.mach = none := by
      simp [newMessage, hoom]
    rw [hnone] at hpending ⊢
    exact ⟨List.append_nil _, hpending⟩

/-- In every state that a run reaches, a value is made into a message with its whole text in its
block, or into none, just when it can be dumped and the size of its block fits into a `size_t`,
or there is no memory for the message. The same holds of what is put into the queue of an
established connection. -/
theorem no_empty_frame_iff (env : Env H) (hlib : PrintsText env.platform.lib) (json : JsonStore)
    (oom : Nat → Bool) (user : H) {is : List (Input H)} {w : World H} {hist : List Event}
    {c : Conn} (hr : run (step env) (start json oom user) is = .ok (w, hist))
    (hc : w.phase c = .established) (value : Option JsonRef) :
    CreatesWhole env.platform value w.mach ∧ SendsWhole env.platform c value w.mach ↔
      (Dumpable env.platform.lib w.mach.json value ∧ RoomFor env.platform value w.mach) ∨
        w.mach.oom 0 = true := by
  obtain ⟨_, b, hx⟩ := run_explains (start_refines env json oom user) hr
  constructor
  · rintro ⟨hcreates, _⟩
    exact (createsWhole_iff hlib value w.mach).mp hcreates
  · intro hvalue
    exact ⟨(createsWhole_iff hlib value w.mach).mpr hvalue, sendsWhole hx.refines hc hlib hvalue⟩

/-! ## Two values -/

theorem text_eq_nil_iff {s : String} : text s = [] ↔ s = "" := by
  unfold text
  rw [← String.utf8ByteSize_eq_zero_iff, Array.toList_eq_nil_iff]
  constructor
  · intro h
    have hsize := congrArg Array.size h
    simpa using hsize
  · intro h
    exact Array.eq_empty_of_size_eq_zero h

theorem printsText_sample (known : List Json) : PrintsText (sampleLib known) := by
  intro v t h
  have h : print v = some t := h
  cases v with
  | integer i =>
    cases h
    rw [ne_eq, text_eq_nil_iff]
    rcases i.toInt with n | n
    · exact Nat.repr_ne_empty
    · intro he
      have hsize := congrArg String.length he
      simp [toString, Int.repr] at hsize
  | real b => cases h
  | string s =>
    simp only [print, Option.ite_none_right_eq_some, Option.some.injEq] at h
    obtain ⟨_, rfl⟩ := h
    simp [text_eq_nil_iff]
  | array vs =>
    obtain ⟨s, _, rfl⟩ := Option.map_eq_some_iff.mp h
    simp [text_eq_nil_iff]
  | object ms =>
    obtain ⟨s, _, rfl⟩ := Option.map_eq_some_iff.mp h
    simp [text_eq_nil_iff]
  | _ =>
    cases h
    simp [text_eq_nil_iff]

/-- An array that holds one text. -/
def arrayOf (t : Bytes) : JsonStore :=
  ((JsonStore.empty.new (.string t)).1.new (.array [.node 0])).1

/-- An array with a text that can be printed is sent as a whole. -/
theorem no_empty_frame_iff_sample :
    ∃ w hist, run (step (sample [])) (start (arrayOf (text "ok")) (fun _ => false) ())
        [callbackFor 7 .established] = .ok (w, hist) ∧
      CreatesWhole (sample []).platform (some (.node 1)) w.mach ∧
      SendsWhole (sample []).platform 7 (some (.node 1)) w.mach := by
  have htest : runEnds (step (sample []))
      (start (arrayOf (text "ok")) (fun _ => false) ()) [callbackFor 7 .established]
      (fun w _ => decide (w.phase 7 = .established ∧
        (w.mach.json.compact (sampleLib []) (some (.node 1))).isSome ∧
        jrpc_message_measure (sampleLib []) w.mach.json (some (.node 1)) < 2 ^ 32)) = true := by
    decide +kernel
  obtain ⟨w, hist, hrun, htest⟩ := runEnds_spec htest
  obtain ⟨hc, hcompact, hmeasure⟩ := of_decide_eq_true htest
  have hvalue := dumpable_iff.mpr (Option.isSome_iff_exists.mp hcompact)
  have hroom : RoomFor (sample []).platform (some (.node 1)) w.mach := by
    have hblock : 24 + 16 + jrpc_message_measure (sampleLib []) w.mach.json (some (.node 1)) <
        2 ^ 64 := by omega
    exact hblock
  obtain ⟨hcreates, hsends⟩ := (no_empty_frame_iff (sample []) (printsText_sample []) _ _ ()
    hrun hc (some (.node 1))).mpr (.inl ⟨hvalue, hroom⟩)
  exact ⟨w, hist, hrun, hcreates, hsends⟩

/-- An array with a text that is not UTF-8 is sent as an empty frame. -/
theorem empty_frame_is_sent :
    ∃ w hist w' out,
      run (step (sample [])) (start (arrayOf [255]) (fun _ => false) ())
        [callbackFor 7 .established] = .ok (w, hist) ∧
      run (step (sample [])) w [.user (.send 7 (.respond (some (.node 1)) 1) .ret),
        callbackFor 7 (.server_writeable 0)] = .ok (w', out) ∧
      writtenOn 7 out = [(0, [])] ∧
      ¬ (CreatesWhole (sample []).platform (some (.node 1)) w.mach ∧
        SendsWhole (sample []).platform 7 (some (.node 1)) w.mach) := by
  have htest : runEnds (step (sample []))
      (start (arrayOf [255]) (fun _ => false) ()) [callbackFor 7 .established]
      (fun w _ => runEnds (step (sample [])) w
          [.user (.send 7 (.respond (some (.node 1)) 1) .ret),
            callbackFor 7 (.server_writeable 0)]
          (fun _ out => decide (writtenOn 7 out = [(0, [])])) &&
        decide ((w.mach.json.compact (sampleLib []) (some (.node 1))).isNone ∧
          w.mach.oom 0 = false)) = true := by
    decide +kernel
  obtain ⟨w, hist, hrun, htest⟩ := runEnds_spec htest
  obtain ⟨htest, hvalue⟩ := Bool.and_eq_true_iff.mp htest
  obtain ⟨hcompact, hoom⟩ := of_decide_eq_true hvalue
  obtain ⟨w', out, hrun', htest⟩ := runEnds_spec htest
  refine ⟨w, hist, w', out, hrun, hrun', of_decide_eq_true htest, ?_⟩
  rintro ⟨hcreates, _⟩
  rw [createsWhole_iff (printsText_sample []), dumpable_iff] at hcreates
  rcases hcreates with ⟨⟨text, htext⟩, _⟩ | hfull
  · rw [show (sample []).platform.lib = sampleLib [] from rfl] at htext
    rw [htext] at hcompact
    cases hcompact
  · rw [hoom] at hfull
    cases hfull

end jrpc.service

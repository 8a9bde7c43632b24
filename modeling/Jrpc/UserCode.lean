-- What user code can do, whatever it is: it changes no phase, it sends, and it asks for
-- writable callbacks. What it sends depends on its calls, so a promise about its calls is a
-- promise about what can be seen of it.
import Jrpc.Mailbox
import Jrpc.Protocol

open heap
open jrpc.json jrpc.message jrpc.queue jrpc.connection

namespace jrpc.protocol

variable {H : Type}

/-! ## Programs that end well -/

theorem exec_compute {p : Platform} {f : H → JsonStore → H × JsonStore}
    {k : H → JsonStore → UserProg H} {w w' : World H} {out : List Event}
    (h : exec p (.compute f k) w = .ok (w', out)) :
    exec p (k (f w.user w.mach.json).1 (f w.user w.mach.json).2)
      { w.setJson (f w.user w.mach.json).2 with user := (f w.user w.mach.json).1 } =
        .ok (w', out) := h

theorem exec_send {p : Platform} {c : Conn} {call : Send} {k : UserProg H} {w w' : World H}
    {out : List Event} (h : exec p (.send c call k) w = .ok (w', out)) :
    ∃ mach o o', Send.ValidIn w.mach.json call ∧ call.run p c w.mach = .ok (mach, o) ∧
      exec p k { w with mach } = .ok (w', o') ∧ out = o ++ o' := by
  unfold exec at h
  split at h
  · rename_i hok
    obtain ⟨⟨mach, o⟩, hrun, h⟩ := bind_eq_ok.mp h
    obtain ⟨⟨w1, o'⟩, hk, h⟩ := bind_eq_ok.mp h
    cases h
    exact ⟨mach, o, o', hok.2, hrun, hk, rfl⟩
  · cases h

theorem exec_set_userdata {p : Platform} {c : Conn} {data : Option Nat} {k : UserProg H}
    {w w' : World H} {out : List Event}
    (h : exec p (.set_userdata c data k) w = .ok (w', out)) :
    exec p k { w with mach := jrpc_connection_set_userdata c data w.mach } = .ok (w', out) := by
  unfold exec at h
  split at h
  · exact h
  · cases h

theorem exec_get_userdata {p : Platform} {c : Conn} {k : Option Nat → UserProg H}
    {w w' : World H} {out : List Event} (h : exec p (.get_userdata c k) w = .ok (w', out)) :
    exec p (k (jrpc_connection_get_userdata c w.mach)) w = .ok (w', out) := by
  unfold exec at h
  split at h
  · exact h
  · cases h

/-- User code changes no phase. -/
theorem exec_phase {p : Platform} {prog : UserProg H} {w w' : World H} {out : List Event}
    (h : exec p prog w = .ok (w', out)) : w'.phase = w.phase := by
  induction prog generalizing w out with
  | ret =>
    cases h
    rfl
  | compute f k ih => exact (ih _ _ (exec_compute h)).trans rfl
  | send c call k ih =>
    obtain ⟨mach, o, o', _, _, hk, _⟩ := exec_send h
    exact (ih hk).trans rfl
  | set_userdata c data k ih => exact (ih (exec_set_userdata h)).trans rfl
  | get_userdata c k ih => exact ih _ (exec_get_userdata h)

theorem callHandler_phase {p : Platform} {call : Event} {handler : UserProg H} {w w' : World H}
    {out : List Event} (h : callHandler p call handler w = .ok (w', out)) :
    w'.phase = w.phase := by
  unfold callHandler at h
  obtain ⟨⟨w1, o⟩, he, h⟩ := bind_eq_ok.mp h
  cases h
  exact exec_phase he

/-! ## What can be seen -/

/-- User code only sends, and asks for writable callbacks. -/
theorem exec_events {p : Platform} {prog : UserProg H} {w w' : World H} {out : List Event}
    (h : exec p prog w = .ok (w', out)) :
    ∀ e ∈ out, (∃ c object message, e = .send c object message) ∨ ∃ wsi, e = .on_writable wsi := by
  induction prog generalizing w out with
  | ret =>
    cases h
    intro e he
    cases he
  | compute f k ih => exact ih _ _ (exec_compute h)
  | send c call k ih =>
    obtain ⟨mach, o, o', _, hrun, hk, rfl⟩ := exec_send h
    obtain ⟨_, message, rest, rfl, _, hrest⟩ := Send.run_events hrun
    intro e he
    rcases List.mem_append.mp he with he | he
    · rcases List.mem_cons.mp he with rfl | he
      · exact .inl ⟨_, _, _, rfl⟩
      · exact .inr (hrest e he)
    · exact ih hk e he
  | set_userdata c data k ih => exact ih (exec_set_userdata h)
  | get_userdata c k ih => exact ih _ (exec_get_userdata h)

/-! ## Promises about the calls -/

/-- Every call that the code can make is allowed. -/
def AllSends (P : Conn → Send → Prop) : UserProg H → Prop
  | .ret => True
  | .compute _ k => ∀ user json, AllSends P (k user json)
  | .send c call k => P c call ∧ AllSends P k
  | .set_userdata _ _ k => AllSends P k
  | .get_userdata _ k => ∀ data, AllSends P (k data)

/-- The code sends nothing. -/
def Silent (prog : UserProg H) : Prop := AllSends (fun _ _ => False) prog

/-- An answer with this id. -/
def Answers (id : Int32) : Send → Prop
  | .respond _ i => i = id
  | .respond_error _ _ i => i = id
  | .notify _ _ => False

/-- The code answers once, on this connection and with this id, and sends nothing else. -/
def AnswersOnce (c : Conn) (id : Int32) : UserProg H → Prop
  | .ret => False
  | .compute _ k => ∀ user json, AnswersOnce c id (k user json)
  | .send d call k => d = c ∧ Answers id call ∧ Silent k
  | .set_userdata _ _ k => AnswersOnce c id k
  | .get_userdata _ k => ∀ data, AnswersOnce c id (k data)

/-- No allocation fails from now on. -/
def Plenty (m : Machine) : Prop := ∀ n, m.oom n = false

/-- User code made this call on a connection, with this memory, and it sent this object in this
message. -/
structure MadeBy (p : Platform) (c : Conn) (call : Send) (m : Machine) (object : Option Json)
    (message : Option (Addr × Bytes)) : Prop where
  valid : Send.ValidIn m.json call
  sent : ∃ m' out, call.run p c m = .ok (m', out) ∧ .send c object message ∈ out

/-- What is sent is the object that the call built. -/
theorem MadeBy.object_eq {p : Platform} {c : Conn} {call : Send} {m : Machine}
    {object : Option Json} {message : Option (Addr × Bytes)}
    (h : MadeBy p c call m object message) :
    object = (call.object p m).bind (call.ready p m).json.read ∧
      (m.oom call.allocations = false → message.isSome) := by
  obtain ⟨m', out, hrun, he⟩ := h.sent
  obtain ⟨_, message', rest, rfl, hmessage, hrest⟩ := Send.run_events hrun
  rcases List.mem_cons.mp he with he | he
  · cases he
    exact ⟨rfl, hmessage⟩
  · obtain ⟨wsi, hw⟩ := hrest _ he
    cases hw

/-- The message holds the text of the object that is sent. -/
theorem MadeBy.text_eq {p : Platform} {c : Conn} {call : Send} {m : Machine}
    {object : Option Json} {message : Addr × Bytes}
    (h : MadeBy p c call m object (some message)) :
    message.2 = (object.bind p.lib.dumps).getD [] := by
  obtain ⟨m', out, hrun, he⟩ := h.sent
  rw [Send.run_eq] at hrun
  exact send_text hrun he

theorem Plenty.later {m m' : Machine} {n : Nat} (h : Plenty m)
    (hm : m'.oom = connection.later n m.oom) : Plenty m' := by
  intro i
  rw [hm]
  exact h (i + n)

theorem exec_plenty {p : Platform} {prog : UserProg H} {w w' : World H} {out : List Event}
    (h : exec p prog w = .ok (w', out)) (hw : Plenty w.mach) : Plenty w'.mach := by
  induction prog generalizing w out with
  | ret =>
    cases h
    exact hw
  | compute f k ih => exact ih _ _ (exec_compute h) hw
  | send c call k ih =>
    obtain ⟨mach, o, o', _, hrun, hk, _⟩ := exec_send h
    exact ih hk (hw.later (Send.run_events hrun).1)
  | set_userdata c data k ih => exact ih (exec_set_userdata h) hw
  | get_userdata c k ih => exact ih _ (exec_get_userdata h) hw

/-- What is sent was made by an allowed call. -/
theorem exec_sends {p : Platform} {P : Conn → Send → Prop} {prog : UserProg H} {w w' : World H}
    {out : List Event} (hP : AllSends P prog) (h : exec p prog w = .ok (w', out)) {c : Conn}
    {object : Option Json} {message : Option (Addr × Bytes)}
    (he : .send c object message ∈ out) :
    ∃ call m, P c call ∧ MadeBy p c call m object message ∧ (Plenty w.mach → Plenty m) := by
  induction prog generalizing w out with
  | ret =>
    cases h
    cases he
  | compute f k ih =>
    have hrest := ih _ _ (hP _ _) (exec_compute h) he
    exact hrest
  | send d call k ih =>
    obtain ⟨mach, o, o', hvalid, hrun, hk, rfl⟩ := exec_send h
    obtain ⟨hoom, message', rest, hout, _, hrest⟩ := Send.run_events hrun
    rcases List.mem_append.mp he with he | he
    · have hd : c = d := by
        rw [hout] at he
        rcases List.mem_cons.mp he with he | he
        · cases he
          rfl
        · obtain ⟨wsi, hw⟩ := hrest _ he
          cases hw
      subst hd
      exact ⟨call, w.mach, hP.1, ⟨hvalid, mach, o, hrun, he⟩, id⟩
    · obtain ⟨call', m, hcall', hmade, hplenty⟩ := ih hP.2 hk he
      exact ⟨call', m, hcall', hmade, fun hw => hplenty (hw.later hoom)⟩
  | set_userdata d data k ih =>
    have hrest := ih hP (exec_set_userdata h) he
    exact hrest
  | get_userdata d k ih => exact ih _ (hP _) (exec_get_userdata h) he

theorem silent_sends {p : Platform} {prog : UserProg H} {w w' : World H} {out : List Event}
    (hs : Silent prog) (h : exec p prog w = .ok (w', out)) {c : Conn} {object : Option Json}
    {message : Option (Addr × Bytes)} : .send c object message ∉ out := by
  intro he
  obtain ⟨_, _, hfalse, _⟩ := exec_sends hs h he
  exact hfalse

end jrpc.protocol

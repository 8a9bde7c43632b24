-- A family of outboxes, one for each key: messages are posted at the end and delivered
-- one at a time from the front, and a flag asks for the next delivery. The laws hold for
-- any number of keys and for acts in any order.
import Mathlib.Logic.Function.Basic
import Jrpc.Runs

open runs

namespace outbox

variable {κ α : Type} [DecidableEq κ]

/-- The life of a key: it is established once, and closed once. -/
inductive Phase
  | fresh
  | established
  | closed
  deriving DecidableEq

structure Outbox (κ α : Type) where
  phase : κ → Phase
  queue : κ → List α
  armed : κ → Bool

inductive Act (κ α : Type)
  | establish (k : κ)
  | post (k : κ) (a : α)
  | deliver (k : κ) (a : α)
  | idle (k : κ)
  | close (k : κ)

/-- One act on the outbox of one key. A delivery takes the head of the queue, and asks for
another one when messages are left. An idle act finds the queue empty. -/
inductive Next : Outbox κ α → Act κ α → Outbox κ α → Prop
  | establish {b : Outbox κ α} {k : κ} : b.phase k = .fresh →
      Next b (.establish k)
        { phase := Function.update b.phase k .established
          queue := Function.update b.queue k []
          armed := Function.update b.armed k false }
  | post {b : Outbox κ α} {k : κ} {a : α} : b.phase k = .established →
      Next b (.post k a)
        { b with
          queue := Function.update b.queue k (b.queue k ++ [a])
          armed := Function.update b.armed k true }
  | deliver {b : Outbox κ α} {k : κ} {a : α} {rest : List α} : b.phase k = .established →
      b.queue k = a :: rest →
      Next b (.deliver k a)
        { b with
          queue := Function.update b.queue k rest
          armed := Function.update b.armed k !rest.isEmpty }
  | idle {b : Outbox κ α} {k : κ} : b.phase k = .established → b.queue k = [] →
      Next b (.idle k) { b with armed := Function.update b.armed k false }
  | close {b : Outbox κ α} {k : κ} : b.phase k = .established →
      Next b (.close k)
        { b with
          phase := Function.update b.phase k .closed
          queue := Function.update b.queue k [] }

/-- Every key is fresh, and nothing was posted. -/
def start : Outbox κ α := ⟨fun _ => .fresh, fun _ => [], fun _ => false⟩

/-- The key that an act is about. -/
def Act.key : Act κ α → κ
  | .establish k => k
  | .post k _ => k
  | .deliver k _ => k
  | .idle k => k
  | .close k => k

/-- An act leaves the outbox of every other key alone. -/
theorem Next.other {b b' : Outbox κ α} {x : Act κ α} (h : Next b x b') {j : κ}
    (hj : j ≠ x.key) :
    b'.phase j = b.phase j ∧ b'.queue j = b.queue j ∧ b'.armed j = b.armed j := by
  cases h <;> simp only [Act.key] at hj <;> simp [Function.update_of_ne hj]

/-! ## The flag -/

/-- The flag of an established key is set just when its queue holds a message, and only an
established key has messages. -/
structure Sound (b : Outbox κ α) (k : κ) : Prop where
  armed : b.phase k = .established → b.armed k = !(b.queue k).isEmpty
  quiet : b.phase k ≠ .established → b.queue k = []

omit [DecidableEq κ] in
theorem sound_start (k : κ) : Sound (start : Outbox κ α) k :=
  ⟨fun hk => (by cases hk), fun _ => rfl⟩

theorem Next.sound {b b' : Outbox κ α} {x : Act κ α} (h : Next b x b')
    (hb : ∀ k, Sound b k) (j : κ) : Sound b' j := by
  by_cases hj : j = x.key
  · subst hj
    cases h with
    | establish hk => constructor <;> simp [Act.key]
    | post hk => constructor <;> simp [Act.key, hk]
    | deliver hk hq => constructor <;> simp [Act.key, hk]
    | idle hk hq => constructor <;> simp [Act.key, hk, hq]
    | close hk => constructor <;> simp [Act.key]
  · obtain ⟨h1, h2, h3⟩ := h.other hj
    obtain ⟨harmed, hquiet⟩ := hb j
    exact ⟨by rwa [h1, h2, h3], by rwa [h1, h2]⟩

/-! ## What was posted and what was delivered -/

def postedBy (k : κ) : Act κ α → Option α
  | .post j a => if j = k then some a else none
  | _ => none

def deliveredBy (k : κ) : Act κ α → Option α
  | .deliver j a => if j = k then some a else none
  | _ => none

/-- A delivery, or a call for one that found the queue empty. -/
def drainsBy (k : κ) : Act κ α → Bool
  | .deliver j _ => decide (j = k)
  | .idle j => decide (j = k)
  | _ => false

/-- The messages posted for `k`, oldest first. -/
def posted (k : κ) (xs : List (Act κ α)) : List α := xs.filterMap (postedBy k)

/-- The messages delivered for `k`, oldest first. -/
def delivered (k : κ) (xs : List (Act κ α)) : List α := xs.filterMap (deliveredBy k)

def drains (k : κ) (xs : List (Act κ α)) : Nat := xs.countP (drainsBy k)

@[simp] theorem posted_cons (k : κ) (x : Act κ α) (xs : List (Act κ α)) :
    posted k (x :: xs) = (postedBy k x).toList ++ posted k xs := by
  unfold posted
  cases h : postedBy k x <;> simp [h]

@[simp] theorem delivered_cons (k : κ) (x : Act κ α) (xs : List (Act κ α)) :
    delivered k (x :: xs) = (deliveredBy k x).toList ++ delivered k xs := by
  unfold delivered
  cases h : deliveredBy k x <;> simp [h]

@[simp] theorem drains_cons (k : κ) (x : Act κ α) (xs : List (Act κ α)) :
    drains k (x :: xs) = drains k xs + if drainsBy k x then 1 else 0 := by
  simp [drains, List.countP_cons]

@[simp] theorem posted_nil (k : κ) : posted k ([] : List (Act κ α)) = [] := rfl

@[simp] theorem delivered_nil (k : κ) : delivered k ([] : List (Act κ α)) = [] := rfl

@[simp] theorem drains_nil (k : κ) : drains k ([] : List (Act κ α)) = 0 := rfl

@[simp] theorem posted_append (k : κ) (xs ys : List (Act κ α)) :
    posted k (xs ++ ys) = posted k xs ++ posted k ys := by
  simp [posted]

@[simp] theorem delivered_append (k : κ) (xs ys : List (Act κ α)) :
    delivered k (xs ++ ys) = delivered k xs ++ delivered k ys := by
  simp [delivered]

@[simp] theorem drains_append (k : κ) (xs ys : List (Act κ α)) :
    drains k (xs ++ ys) = drains k xs + drains k ys := by
  simp [drains]

theorem delivered_le_drains (k : κ) (xs : List (Act κ α)) :
    (delivered k xs).length ≤ drains k xs := by
  induction xs with
  | nil => exact Nat.le_refl 0
  | cons x xs ih =>
    rw [delivered_cons, drains_cons, List.length_append, Nat.add_comm]
    apply Nat.add_le_add ih
    cases x with
    | deliver j a => by_cases hj : j = k <;> simp [deliveredBy, drainsBy, hj]
    | _ => exact Nat.zero_le _

/-- An act of one key says nothing about the messages of another one. -/
theorem silent_of_other {x : Act κ α} {j : κ} (hj : j ≠ x.key) :
    postedBy j x = none ∧ deliveredBy j x = none ∧ drainsBy j x = false := by
  cases x <;> simp [postedBy, deliveredBy, drainsBy, Act.key] at hj ⊢ <;> exact Ne.symm hj

/-- What was delivered, and then what is in the queue, is what was posted. A fresh key has
neither, and a closed key lost what was in the queue when it was closed. -/
def Ledger (b : Outbox κ α) (log : List (Act κ α)) (k : κ) : Prop :=
  match b.phase k with
  | .fresh => delivered k log = [] ∧ posted k log = []
  | .established => delivered k log ++ b.queue k = posted k log
  | .closed => delivered k log <+: posted k log

theorem Next.ledger {b b' : Outbox κ α} {x : Act κ α} {log : List (Act κ α)} (h : Next b x b')
    {j : κ} (hbj : Ledger b log j) : Ledger b' (log ++ [x]) j := by
  unfold Ledger at hbj ⊢
  by_cases hj : j = x.key
  · subst hj
    cases h with
    | establish hk =>
      simp only [Act.key, hk] at hbj
      simp [Act.key, hbj, deliveredBy, postedBy]
    | post hk =>
      simp only [Act.key, hk] at hbj
      simp [Act.key, hk, ← hbj, deliveredBy, postedBy]
    | deliver hk hq =>
      simp only [Act.key, hk, hq] at hbj
      simp [Act.key, hk, ← hbj, deliveredBy, postedBy]
    | idle hk hq =>
      simp only [Act.key, hk] at hbj
      simp [Act.key, hk, ← hbj, deliveredBy, postedBy]
    | close hk =>
      simp only [Act.key, hk] at hbj
      simp [Act.key, ← hbj, deliveredBy, postedBy]
  · obtain ⟨h1, h2, _⟩ := h.other hj
    obtain ⟨hp, hd, _⟩ := silent_of_other hj
    simpa [h1, h2, hp, hd] using hbj

/-- The ledger of a key begins while the key is fresh. -/
theorem ledger_replay {b b' : Outbox κ α} {xs : List (Act κ α)} {k : κ}
    (hk : b.phase k = .fresh) (h : Replay Next b xs b') : Ledger b' xs k := by
  have hb : Ledger b [] k := by
    unfold Ledger
    rw [hk]
    exact ⟨rfl, rfl⟩
  exact h.invariant (fun t log => Ledger t log k) (fun _ _ _ _ ht hn => hn.ledger ht) [] hb

/-- In every phase, the deliveries are the first of the posts. -/
theorem delivered_prefix {b b' : Outbox κ α} {xs : List (Act κ α)} {k : κ}
    (hk : b.phase k = .fresh) (h : Replay Next b xs b') :
    delivered k xs <+: posted k xs := by
  have hl := ledger_replay hk h
  unfold Ledger at hl
  split at hl
  · simp [hl]
  · rw [← hl]
    exact List.prefix_append _ _
  · exact hl

/-! ## A backlog -/

theorem Next.closed_stays {b b' : Outbox κ α} {x : Act κ α} (h : Next b x b') {k : κ}
    (hk : b.phase k = .closed) : b'.phase k = .closed := by
  by_cases hx : k = x.key
  · subst hx
    cases h <;> simp_all [Act.key]
  · rw [(h.other hx).1, hk]

theorem closed_stays_replay {b b' : Outbox κ α} {xs : List (Act κ α)} {k : κ}
    (h : Replay Next b xs b') (hk : b.phase k = .closed) : b'.phase k = .closed :=
  h.invariant (fun t _ => t.phase k = .closed) (fun _ _ _ _ ht hn => hn.closed_stays ht)
    [] hk

/-- No key becomes fresh again. -/
theorem Next.was_fresh {b b' : Outbox κ α} {x : Act κ α} (h : Next b x b') {k : κ}
    (hk : b'.phase k = .fresh) : b.phase k = .fresh := by
  by_cases hx : k = x.key
  · subst hx
    cases h <;> simp_all [Act.key]
  · rw [← (h.other hx).1, hk]

theorem was_fresh_replay {b b' : Outbox κ α} {xs : List (Act κ α)} {k : κ}
    (h : Replay Next b xs b') (hk : b'.phase k = .fresh) : b.phase k = .fresh := by
  induction h with
  | nil => exact hk
  | cons hb _ ih => exact hb.was_fresh (ih hk)

/-- With no new post, each drain takes one message off the backlog of an established key. -/
theorem backlog {b b' : Outbox κ α} {xs : List (Act κ α)} {k : κ} (h : Replay Next b xs b')
    (hk : b.phase k = .established) (hk' : b'.phase k = .established)
    (hpost : posted k xs = []) :
    b'.queue k = (b.queue k).drop (drains k xs) ∧
      delivered k xs = (b.queue k).take (drains k xs) := by
  induction h with
  | nil => simp [drains, delivered]
  | @cons t t1 t2 x xs hx hxs ih =>
    simp only [posted_cons, List.append_eq_nil_iff] at hpost
    obtain ⟨hx0, hxs0⟩ := hpost
    by_cases hkx : k = x.key
    · subst hkx
      cases hx with
      | establish hf => simp only [Act.key, hf] at hk; cases hk
      | post he => simp [postedBy, Act.key] at hx0
      | deliver he hq =>
        have hrest := ih (by simpa [Act.key] using he) hk' hxs0
        simp only [Act.key, Function.update_self] at hrest
        simp [Act.key, hq, drainsBy, deliveredBy, hrest]
      | idle he hq =>
        have hrest := ih (by simpa [Act.key] using he) hk' hxs0
        simp only [Act.key, hq, List.drop_nil, List.take_nil] at hrest
        simp [Act.key, hq, deliveredBy, hrest]
      | close he =>
        have hclosed := closed_stays_replay hxs (Function.update_self _ _ _)
        simp only [Act.key] at hk'
        rw [hclosed] at hk'
        cases hk'
    · obtain ⟨h1, h2, _⟩ := hx.other hkx
      obtain ⟨_, hd, hn⟩ := silent_of_other hkx
      have hrest := ih (h1 ▸ hk) hk' hxs0
      rw [h2] at hrest
      simpa [hd, hn] using hrest

end outbox

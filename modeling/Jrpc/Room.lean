-- A room where members talk. Whoever enters has no name at first, may take one that nobody
-- has, and may speak. What is said in public is heard by all members in the same order, and
-- an answer to a request is heard by the one who asked.
import Mathlib.Logic.Function.Basic
import Mathlib.Data.List.Infix
import Mathlib.Data.List.TakeWhile

namespace room

variable {κ ν τ ι ε : Type}

/-- The name of each member. -/
structure Room (κ ν : Type) where
  name : κ → Option ν

/-- What is done in a room. A request carries a ticket, which its answer carries again. -/
inductive Act (κ ν τ ι ε : Type)
  | enter (k : κ)
  | leave (k : κ)
  | rename (k : κ) (name : ν) (ticket : ι)
  | say (k : κ) (words : τ)
  | mistake (k : κ) (reason : ε) (ticket : ι)

/-- What is heard in a room. -/
inductive Line (ν τ ι ε : Type)
  | arrived (who : ν)
  | gone (who : ν)
  | message (who : ν) (words : τ)
  | granted (name : ν) (ticket : ι)
  | refused (ticket : ι)
  | rejected (reason : ε) (ticket : ι)

namespace Room

def empty : Room κ ν := ⟨fun _ => none⟩

def Used (r : Room κ ν) (name : ν) : Prop := ∃ k, r.name k = some name

/-- The name of a member. A name that nobody chose is the default one. -/
def called [Inhabited ν] (r : Room κ ν) (k : κ) : ν := (r.name k).getD default

variable [DecidableEq κ] [Inhabited ν]

open Classical in
noncomputable def next (r : Room κ ν) : Act κ ν τ ι ε → Room κ ν
  | .enter k => ⟨Function.update r.name k (some default)⟩
  | .leave k => ⟨Function.update r.name k none⟩
  | .rename k name _ => if r.Used name then r else ⟨Function.update r.name k (some name)⟩
  | .say _ _ => r
  | .mistake _ _ _ => r

noncomputable def after (r : Room κ ν) : List (Act κ ν τ ι ε) → Room κ ν
  | [] => r
  | a :: as => (r.next a).after as

/-- A stranger enters, and everything else is done by members. -/
def Allows (r : Room κ ν) : Act κ ν τ ι ε → Prop
  | .enter k => r.name k = none
  | .leave k => (r.name k).isSome
  | .rename k _ _ => (r.name k).isSome
  | .say k _ => (r.name k).isSome
  | .mistake k _ _ => (r.name k).isSome

def AllowsAll (r : Room κ ν) : List (Act κ ν τ ι ε) → Prop
  | [] => True
  | a :: as => r.Allows a ∧ (r.next a).AllowsAll as

open Classical in
/-- What an act says in public. -/
noncomputable def posts (r : Room κ ν) : Act κ ν τ ι ε → List (Line ν τ ι ε)
  | .enter _ => []
  | .leave k => [.gone (r.called k)]
  | .rename _ name _ => if r.Used name then [] else [.arrived name]
  | .say k words => [.message (r.called k) words]
  | .mistake _ _ _ => []

open Classical in
/-- What an act says to one member alone. -/
noncomputable def answers (r : Room κ ν) (j : κ) : Act κ ν τ ι ε → List (Line ν τ ι ε)
  | .rename k name ticket =>
    if j = k then [if r.Used name then .refused ticket else .granted name ticket] else []
  | .mistake k reason ticket => if j = k then [.rejected reason ticket] else []
  | _ => []

/-- A member hears the answer first, and then what is said in public. -/
noncomputable def told (r : Room κ ν) (j : κ) (a : Act κ ν τ ι ε) : List (Line ν τ ι ε) :=
  r.answers j a ++ if (r.name j).isSome then r.posts a else []

/-- All that is heard at one place, oldest first. -/
noncomputable def hears (j : κ) : Room κ ν → List (Act κ ν τ ι ε) → List (Line ν τ ι ε)
  | _, [] => []
  | r, a :: as => r.told j a ++ hears j (r.next a) as

/-- All that is said in public, oldest first. -/
noncomputable def log : Room κ ν → List (Act κ ν τ ι ε) → List (Line ν τ ι ε)
  | _, [] => []
  | r, a :: as => r.posts a ++ log (r.next a) as

theorem after_append (r : Room κ ν) (as bs : List (Act κ ν τ ι ε)) :
    r.after (as ++ bs) = (r.after as).after bs := by
  induction as generalizing r with
  | nil => rfl
  | cons a as ih => exact ih (r.next a)

theorem hears_append (j : κ) (r : Room κ ν) (as bs : List (Act κ ν τ ι ε)) :
    hears j r (as ++ bs) = hears j r as ++ hears j (r.after as) bs := by
  induction as generalizing r with
  | nil => rfl
  | cons a as ih => simp only [List.cons_append, hears, after, ih, List.append_assoc]

theorem log_append (r : Room κ ν) (as bs : List (Act κ ν τ ι ε)) :
    log r (as ++ bs) = log r as ++ log (r.after as) bs := by
  induction as generalizing r with
  | nil => rfl
  | cons a as ih => simp only [List.cons_append, log, after, ih, List.append_assoc]

theorem allowsAll_append {r : Room κ ν} {as bs : List (Act κ ν τ ι ε)} :
    r.AllowsAll (as ++ bs) ↔ r.AllowsAll as ∧ (r.after as).AllowsAll bs := by
  induction as generalizing r with
  | nil => simp [AllowsAll, after]
  | cons a as ih => simp only [List.cons_append, AllowsAll, after, ih, and_assoc]

/-! ## Members -/

/-- A member stays one until it leaves. -/
theorem stays {r : Room κ ν} {j : κ} {a : Act κ ν τ ι ε} (hj : (r.name j).isSome)
    (ha : a ≠ .leave j) : ((r.next a).name j).isSome := by
  cases a with
  | enter k =>
    by_cases hk : j = k
    · simp [next, hk]
    · simpa [next, Function.update_of_ne hk] using hj
  | leave k =>
    have hk : j ≠ k := by
      rintro rfl
      exact ha rfl
    simpa [next, Function.update_of_ne hk] using hj
  | rename k name ticket =>
    simp only [next]
    split
    · exact hj
    · by_cases hk : j = k
      · simp [hk]
      · simpa [Function.update_of_ne hk] using hj
  | say k words => exact hj
  | mistake k reason ticket => exact hj

/-! ## What is said in public -/

def isPost : Line ν τ ι ε → Bool
  | .arrived _ => true
  | .gone _ => true
  | .message _ _ => true
  | _ => false

omit [DecidableEq κ] in
theorem posts_public (r : Room κ ν) (a : Act κ ν τ ι ε) : ∀ l ∈ r.posts a, isPost l = true := by
  intro l hl
  cases a with
  | rename k name ticket =>
    simp only [posts] at hl
    split at hl
    · cases hl
    · rw [List.mem_singleton.mp hl]
      rfl
  | leave k =>
    rw [List.mem_singleton.mp hl]
    rfl
  | say k words =>
    rw [List.mem_singleton.mp hl]
    rfl
  | _ => cases hl

omit [Inhabited ν] in
theorem answers_private (r : Room κ ν) (j : κ) (a : Act κ ν τ ι ε) :
    ∀ l ∈ r.answers j a, isPost l = false := by
  intro l hl
  unfold answers at hl
  cases a with
  | rename k name ticket =>
    dsimp only at hl
    split at hl
    · rw [List.mem_singleton.mp hl]
      split <;> rfl
    · cases hl
  | mistake k reason ticket =>
    dsimp only at hl
    split at hl
    · rw [List.mem_singleton.mp hl]
      rfl
    · cases hl
  | _ => cases hl

/-- The public part of what a member is told is all that was said in public. -/
theorem told_posts {r : Room κ ν} {j : κ} (hj : (r.name j).isSome) (a : Act κ ν τ ι ε) :
    (r.told j a).filter isPost = r.posts a := by
  unfold told
  rw [if_pos hj, List.filter_append, List.filter_eq_nil_iff.mpr, List.nil_append,
    List.filter_eq_self.mpr (posts_public r a)]
  intro l hl
  rw [answers_private r j a l hl]
  exact Bool.false_ne_true

/-- Whoever is a member all the time hears the whole log, in its order. -/
theorem members_hear_the_log {r : Room κ ν} {as : List (Act κ ν τ ι ε)} {j : κ}
    (hj : (r.name j).isSome) (hstays : .leave j ∉ as) :
    (hears j r as).filter isPost = log r as := by
  induction as generalizing r with
  | nil => rfl
  | cons a as ih =>
    rw [List.mem_cons, not_or] at hstays
    have hne : a ≠ .leave j := fun he => hstays.1 he.symm
    unfold hears log
    rw [List.filter_append, told_posts hj, ih (stays hj hne) hstays.2]

/-- Whoever has not left hears the log from the moment on when it entered. -/
theorem members_hear_a_suffix {r : Room κ ν} {as : List (Act κ ν τ ι ε)} {j : κ}
    (hstays : .leave j ∉ as) : (hears j r as).filter isPost <:+ log r as := by
  induction as generalizing r with
  | nil => exact List.suffix_rfl
  | cons a as ih =>
    by_cases hj : (r.name j).isSome
    · rw [members_hear_the_log hj hstays]
    · have hnone : (r.told j a).filter isPost = [] := by
        unfold told
        rw [if_neg hj, List.append_nil, List.filter_eq_nil_iff]
        intro l hl
        rw [answers_private r j a l hl]
        exact Bool.false_ne_true
      unfold hears log
      rw [List.filter_append, hnone, List.nil_append]
      exact (ih fun h => hstays (List.mem_cons_of_mem a h)).trans (List.suffix_append _ _)

/-- Whoever is no member, and does not enter, hears nothing in public. -/
theorem strangers_hear_nothing {r : Room κ ν} {as : List (Act κ ν τ ι ε)} {j : κ}
    (hj : r.name j = none) (hall : r.AllowsAll as) (haway : .enter j ∉ as) :
    (hears j r as).filter isPost = [] := by
  induction as generalizing r with
  | nil => rfl
  | cons a as ih =>
    rw [List.mem_cons, not_or] at haway
    have hnone : (r.told j a).filter isPost = [] := by
      unfold told
      rw [hj, Option.isSome_none, if_neg Bool.false_ne_true, List.append_nil,
        List.filter_eq_nil_iff]
      intro l hl
      rw [answers_private r j a l hl]
      exact Bool.false_ne_true
    have hother : ∀ {k : κ}, (r.name k).isSome → j ≠ k := by
      rintro k hk rfl
      rw [hj] at hk
      cases hk
    have hstill : (r.next a).name j = none := by
      have hallow := hall.1
      cases a with
      | enter k =>
        have hk : j ≠ k := by
          rintro rfl
          exact haway.1 rfl
        simpa [next, Function.update_of_ne hk] using hj
      | leave k => simpa [next, Function.update_of_ne (hother hallow)] using hj
      | rename k name ticket =>
        simp only [next]
        split
        · exact hj
        · simpa [Function.update_of_ne (hother hallow)] using hj
      | say k words => exact hj
      | mistake k reason ticket => exact hj
    unfold hears
    rw [List.filter_append, hnone, ih hstill hall.2 haway.2]
    rfl

/-- A member that does not come back hears the first part of the log. -/
theorem members_hear_the_first_part {r : Room κ ν} {as : List (Act κ ν τ ι ε)} {j : κ}
    (hj : (r.name j).isSome) (hall : r.AllowsAll as) (haway : .enter j ∉ as) :
    (hears j r as).filter isPost <+: log r as := by
  by_cases hleave : .leave j ∈ as
  · obtain ⟨before, after, rfl, hstays⟩ := List.eq_append_cons_of_mem hleave
    obtain ⟨_, hmember, hrest⟩ := allowsAll_append.mp hall
    -- what is heard until it leaves, its leaving, and then nothing
    have hgone : ((r.after before).next (.leave j : Act κ ν τ ι ε)).name j = none := by
      simp [next]
    have hnothing := strangers_hear_nothing hgone hrest
      (fun h => haway (List.mem_append_right _ (List.mem_cons_of_mem _ h)))
    rw [hears_append, log_append, hears, log, List.filter_append, List.filter_append,
      members_hear_the_log hj hstays, told_posts hmember, hnothing, List.append_nil,
      ← List.append_assoc]
    exact List.prefix_append _ _
  · rw [members_hear_the_log hj hleave]

/-! ## The door -/

def enters (j : κ) : Act κ ν τ ι ε → Bool
  | .enter k => decide (k = j)
  | _ => false

/-- How often somebody enters. -/
def entries (j : κ) (as : List (Act κ ν τ ι ε)) : Nat := as.countP (enters j)

/-- What is done before somebody enters. -/
def upTo (j : κ) (as : List (Act κ ν τ ι ε)) : List (Act κ ν τ ι ε) :=
  as.takeWhile fun a => !enters j a

omit [Inhabited ν] in
theorem enters_iff {j : κ} {a : Act κ ν τ ι ε} : enters j a = true ↔ a = .enter j := by
  cases a <;> simp [enters]

omit [Inhabited ν] in
theorem entries_append (j : κ) (as bs : List (Act κ ν τ ι ε)) :
    entries j (as ++ bs) = entries j as + entries j bs := List.countP_append

omit [Inhabited ν] in
theorem entries_eq_zero {j : κ} {as : List (Act κ ν τ ι ε)} :
    entries j as = 0 ↔ .enter j ∉ as := by
  unfold entries
  rw [List.countP_eq_zero]
  constructor
  · exact fun h hmem => h _ hmem (enters_iff.mpr rfl)
  · exact fun h a ha hj => h (enters_iff.mp hj ▸ ha)

omit [Inhabited ν] in
/-- Whoever never enters is awaited all the time. -/
theorem upTo_of_never {j : κ} {as : List (Act κ ν τ ι ε)} (h : entries j as = 0) :
    upTo j as = as := by
  unfold upTo
  rw [List.takeWhile_eq_self_iff]
  intro a ha
  rw [Bool.not_eq_true']
  exact Bool.eq_false_iff.mpr (List.countP_eq_zero.mp h a ha)

omit [Inhabited ν] in
theorem upTo_append (j : κ) (as bs : List (Act κ ν τ ι ε)) :
    upTo j as <+: upTo j (as ++ bs) := by
  unfold upTo
  rw [List.takeWhile_append]
  split
  · rename_i hlength
    rw [(List.takeWhile_prefix _).eq_of_length hlength]
    exact List.prefix_append _ _
  · exact List.prefix_rfl

theorem log_grows (r : Room κ ν) {as bs : List (Act κ ν τ ι ε)} (h : as <+: bs) :
    log r as <+: log r bs := by
  obtain ⟨cs, rfl⟩ := h
  rw [log_append]
  exact List.prefix_append _ _

/-- Whoever enters once is a member then, and heard nothing before. -/
theorem at_the_door {as : List (Act κ ν τ ι ε)} {j : κ} (hall : (empty : Room κ ν).AllowsAll as)
    (honce : entries j as ≤ 1) (hmem : .enter j ∈ as) :
    ∃ r : Room κ ν, ∃ rest, rest ⊆ as ∧ (r.name j).isSome ∧ r.AllowsAll rest ∧ .enter j ∉ rest ∧
      (hears j empty as).filter isPost = (hears j r rest).filter isPost ∧
      log empty as = log empty (upTo j as) ++ log r rest := by
  have hsplit : as = upTo j as ++ as.dropWhile fun a => !enters j a :=
    List.takeWhile_append_dropWhile.symm
  have hbefore : .enter j ∉ upTo j as := by
    intro h
    have hnot := List.mem_takeWhile_imp h
    rw [enters_iff.mpr rfl] at hnot
    cases hnot
  rcases hrest : as.dropWhile fun a => !enters j a with _ | ⟨a, rest⟩
  · rw [hrest, List.append_nil] at hsplit
    exact absurd (hsplit ▸ hmem) hbefore
  · have ha : a = .enter j := by
      have hnot := List.head?_dropWhile_not (fun a => !enters j a) as
      rw [hrest] at hnot
      exact enters_iff.mp (by simpa using hnot)
    subst ha
    rw [hrest] at hsplit
    generalize upTo j as = before at hsplit hbefore ⊢
    subst hsplit
    obtain ⟨hfirst, _, hall⟩ := allowsAll_append.mp hall
    have hagain : .enter j ∉ rest := by
      rw [entries_append, entries_eq_zero.mpr hbefore, Nat.zero_add] at honce
      rw [← entries_eq_zero]
      unfold entries at honce ⊢
      rw [List.countP_cons_of_pos (enters_iff.mpr rfl)] at honce
      omega
    have hdoor : ((empty.after before).told j (.enter j : Act κ ν τ ι ε)).filter isPost = [] := by
      simp [told, answers, posts]
    refine ⟨(empty.after before).next (.enter j : Act κ ν τ ι ε), rest, by simp,
      by simp [next], hall, hagain, ?_, ?_⟩
    · rw [hears_append, hears, List.filter_append, List.filter_append,
        strangers_hear_nothing rfl hfirst hbefore, hdoor]
      rfl
    · rw [log_append, log]
      rfl

/-- Whoever enters once hears one part of the log, which begins where it enters. -/
theorem heard_from_the_door {as : List (Act κ ν τ ι ε)} {j : κ}
    (hall : (empty : Room κ ν).AllowsAll as) (honce : entries j as ≤ 1) :
    log empty (upTo j as) ++ (hears j empty as).filter isPost <+: log (empty : Room κ ν) as := by
  by_cases hmem : .enter j ∈ as
  · obtain ⟨r, rest, _, hmember, hall, hagain, hheard, hlog⟩ := at_the_door hall honce hmem
    rw [hheard, hlog]
    exact (List.prefix_append_right_inj _).mpr (members_hear_the_first_part hmember hall hagain)
  · rw [upTo_of_never (entries_eq_zero.mpr hmem), strangers_hear_nothing rfl hall hmem,
      List.append_nil]

/-- Whoever has not left heard all of it. -/
theorem heard_all_from_the_door {as : List (Act κ ν τ ι ε)} {j : κ}
    (hall : (empty : Room κ ν).AllowsAll as) (honce : entries j as ≤ 1) (hstays : .leave j ∉ as) :
    log (empty : Room κ ν) as = log empty (upTo j as) ++ (hears j empty as).filter isPost := by
  by_cases hmem : .enter j ∈ as
  · obtain ⟨r, rest, hsub, hmember, _, _, hheard, hlog⟩ := at_the_door hall honce hmem
    rw [hheard, hlog, members_hear_the_log hmember fun h => hstays (hsub h)]
  · rw [upTo_of_never (entries_eq_zero.mpr hmem), strangers_hear_nothing rfl hall hmem,
      List.append_nil]

/-! ## Names -/

/-- No name but the default one is used twice. -/
def Apart (r : Room κ ν) : Prop :=
  ∀ i j name, r.name i = some name → r.name j = some name → name ≠ default → i = j

omit [DecidableEq κ] in
theorem apart_empty : (empty : Room κ ν).Apart := by
  intro i j name hi
  cases hi

theorem apart_next {r : Room κ ν} (h : r.Apart) (a : Act κ ν τ ι ε) : (r.next a).Apart := by
  cases a with
  | enter k =>
    intro i j name hi hj hname
    have hne : ∀ i, (r.next (.enter k : Act κ ν τ ι ε)).name i = some name →
        r.name i = some name := by
      intro i hi
      by_cases hk : i = k
      · subst hk
        simp only [next, Function.update_self, Option.some.injEq] at hi
        exact absurd hi.symm hname
      · simpa [next, Function.update_of_ne hk] using hi
    exact h i j name (hne i hi) (hne j hj) hname
  | leave k =>
    intro i j name hi hj hname
    have hne : ∀ i, (r.next (.leave k : Act κ ν τ ι ε)).name i = some name →
        r.name i = some name := by
      intro i hi
      by_cases hk : i = k
      · subst hk
        simp [next] at hi
      · simpa [next, Function.update_of_ne hk] using hi
    exact h i j name (hne i hi) (hne j hj) hname
  | rename k taken ticket =>
    simp only [next]
    split
    · exact h
    · rename_i hfree
      intro i j name hi hj hname
      dsimp only at hi hj
      -- nobody but the one who asked has the new name
      have hother : ∀ i, i ≠ k → Function.update r.name k (some taken) i = some name →
          r.name i = some name ∧ name ≠ taken := by
        intro i hk hi
        rw [Function.update_of_ne hk] at hi
        exact ⟨hi, fun he => hfree ⟨i, he ▸ hi⟩⟩
      by_cases hik : i = k
      · by_cases hjk : j = k
        · rw [hik, hjk]
        · rw [hik, Function.update_self, Option.some.injEq] at hi
          exact absurd hi.symm (hother j hjk hj).2
      · by_cases hjk : j = k
        · rw [hjk, Function.update_self, Option.some.injEq] at hj
          exact absurd hj.symm (hother i hik hi).2
        · exact h i j name (hother i hik hi).1 (hother j hjk hj).1 hname
  | say k words => exact h
  | mistake k reason ticket => exact h

theorem apart_after {r : Room κ ν} (h : r.Apart) (as : List (Act κ ν τ ι ε)) :
    (r.after as).Apart := by
  induction as generalizing r with
  | nil => exact h
  | cons a as ih => exact ih (apart_next h a)

/-! ## Where names and words come from -/

/-- The name is the default one, or the member asked for it. -/
def Chosen (as : List (Act κ ν τ ι ε)) (k : κ) (name : ν) : Prop :=
  name = default ∨ ∃ ticket, .rename k name ticket ∈ as

/-- Who does it. -/
def actor : Act κ ν τ ι ε → κ
  | .enter k => k
  | .leave k => k
  | .rename k _ _ => k
  | .say k _ => k
  | .mistake k _ _ => k

/-- The log, where each line has the one whose act it tells. -/
noncomputable def signedLog : Room κ ν → List (Act κ ν τ ι ε) → List (κ × Line ν τ ι ε)
  | _, [] => []
  | r, a :: as => (r.posts a).map (actor a, ·) ++ signedLog (r.next a) as

/-- All that a public line is made of was done by this member. -/
def Backed (as : List (Act κ ν τ ι ε)) (k : κ) : Line ν τ ι ε → Prop
  | .arrived who => ∃ ticket, .rename k who ticket ∈ as
  | .gone who => Chosen as k who ∧ .leave k ∈ as
  | .message who words => Chosen as k who ∧ .say k words ∈ as
  | _ => True

theorem signedLog_lines (r : Room κ ν) (as : List (Act κ ν τ ι ε)) :
    (signedLog r as).map (·.2) = log r as := by
  induction as generalizing r with
  | nil => rfl
  | cons a as ih =>
    unfold signedLog log
    rw [List.map_append, List.map_map, ih]
    exact congrArg (· ++ _) (List.map_id _)

theorem signedLog_append (r : Room κ ν) (as bs : List (Act κ ν τ ι ε)) :
    signedLog r (as ++ bs) = signedLog r as ++ signedLog (r.after as) bs := by
  induction as generalizing r with
  | nil => rfl
  | cons a as ih => simp only [List.cons_append, signedLog, after, ih, List.append_assoc]

omit [DecidableEq κ] in
theorem Chosen.mono {as bs : List (Act κ ν τ ι ε)} {k : κ} {name : ν} (h : Chosen as k name)
    (hsub : as ⊆ bs) : Chosen bs k name :=
  h.imp_right fun ⟨ticket, hmem⟩ => ⟨ticket, hsub hmem⟩

omit [DecidableEq κ] in
theorem Backed.mono {as bs : List (Act κ ν τ ι ε)} {k : κ} {l : Line ν τ ι ε} (h : Backed as k l)
    (hsub : as ⊆ bs) : Backed bs k l := by
  cases l with
  | arrived who => exact h.imp fun ticket hmem => hsub hmem
  | gone who => exact ⟨h.1.mono hsub, hsub h.2⟩
  | message who words => exact ⟨h.1.mono hsub, hsub h.2⟩
  | _ => trivial

theorem names_are_chosen (as : List (Act κ ν τ ι ε)) {k : κ} {name : ν}
    (h : ((empty : Room κ ν).after as).name k = some name) : Chosen as k name := by
  induction as using List.reverseRecOn generalizing name with
  | nil => cases h
  | append_singleton as a ih =>
    rw [after_append] at h
    have hold : ((empty : Room κ ν).after as).name k = some name → Chosen (as ++ [a]) k name :=
      fun h => (ih h).mono (List.subset_append_left as [a])
    cases a with
    | enter j =>
      by_cases hk : k = j
      · subst hk
        have hname : some default = some name := by simpa [after, next] using h
        exact .inl (Option.some.inj hname).symm
      · exact hold (by simpa [after, next, Function.update_of_ne hk] using h)
    | leave j =>
      by_cases hk : k = j
      · subst hk
        simp [after, next] at h
      · exact hold (by simpa [after, next, Function.update_of_ne hk] using h)
    | rename j taken ticket =>
      simp only [after, next] at h
      split at h
      · exact hold h
      · by_cases hk : k = j
        · subst hk
          have hname : some taken = some name := by simpa using h
          cases hname
          exact .inr ⟨ticket, by simp⟩
        · exact hold (by simpa [Function.update_of_ne hk] using h)
    | say j words => exact hold h
    | mistake j reason ticket => exact hold h

theorem called_is_chosen (as : List (Act κ ν τ ι ε)) (k : κ) :
    Chosen as k (((empty : Room κ ν).after as).called k) := by
  unfold called
  rcases hk : ((empty : Room κ ν).after as).name k with _ | name
  · exact .inl rfl
  · exact names_are_chosen as hk

/-- Nothing in the log of a room was made up, and nobody speaks for another one. -/
theorem log_is_backed (as : List (Act κ ν τ ι ε)) :
    ∀ x ∈ signedLog (empty : Room κ ν) as, Backed as x.1 x.2 := by
  induction as using List.reverseRecOn with
  | nil =>
    intro x hx
    cases hx
  | append_singleton as a ih =>
    intro x hx
    have hsub := List.subset_append_left as [a]
    have ha : a ∈ as ++ [a] := by simp
    rw [signedLog_append] at hx
    rcases List.mem_append.mp hx with hx | hx
    · exact (ih x hx).mono hsub
    · have hx : x ∈ (((empty : Room κ ν).after as).posts a).map (actor a, ·) := by
        simpa [signedLog] using hx
      obtain ⟨l, hl, rfl⟩ := List.mem_map.mp hx
      cases a with
      | leave k =>
        rw [List.mem_singleton.mp hl]
        exact ⟨(called_is_chosen as k).mono hsub, ha⟩
      | say k words =>
        rw [List.mem_singleton.mp hl]
        exact ⟨(called_is_chosen as k).mono hsub, ha⟩
      | rename k name ticket =>
        simp only [posts] at hl
        split at hl
        · cases hl
        · rw [List.mem_singleton.mp hl]
          exact ⟨ticket, ha⟩
      | _ => cases hl

/-! ## Who says what -/

def speech : Act κ ν τ ι ε → Option (κ × τ)
  | .say k words => some (k, words)
  | _ => none

def wordsIn : Line ν τ ι ε → Option τ
  | .message _ words => some words
  | _ => none

omit [DecidableEq κ] in
theorem words_posts (r : Room κ ν) (a : Act κ ν τ ι ε) :
    (r.posts a).filterMap wordsIn = ((speech a).map (·.2)).toList := by
  cases a with
  | rename k name ticket =>
    simp only [posts]
    split <;> rfl
  | _ => rfl

/-- The words in the log are what is said, each once and in this order. -/
theorem words_log (r : Room κ ν) (as : List (Act κ ν τ ι ε)) :
    (log r as).filterMap wordsIn = (as.filterMap speech).map (·.2) := by
  induction as generalizing r with
  | nil => rfl
  | cons a as ih =>
    unfold log
    rw [List.filterMap_append, words_posts, ih]
    rcases hspeech : speech a with _ | said
    · rw [List.filterMap_cons_none hspeech]
      rfl
    · rw [List.filterMap_cons_some hspeech]
      rfl

/-! ## Answers -/

/-- The ticket of an answer. -/
def ticketOf : Line ν τ ι ε → Option ι
  | .granted _ ticket => some ticket
  | .refused ticket => some ticket
  | .rejected _ ticket => some ticket
  | _ => none

/-- The ticket of a request that a member makes. -/
def requestBy (j : κ) : Act κ ν τ ι ε → Option ι
  | .rename k _ ticket => if j = k then some ticket else none
  | .mistake k _ ticket => if j = k then some ticket else none
  | _ => none

theorem told_tickets (r : Room κ ν) (j : κ) (a : Act κ ν τ ι ε) :
    (r.told j a).filterMap ticketOf = (requestBy j a).toList := by
  have hposts : (if (r.name j).isSome then r.posts a else []).filterMap ticketOf = [] := by
    apply List.filterMap_eq_nil_iff.mpr
    intro l hl
    have hpost : isPost l = true := by
      split at hl
      · exact posts_public r a l hl
      · cases hl
    cases l <;> first | rfl | cases hpost
  unfold told
  rw [List.filterMap_append, hposts, List.append_nil]
  cases a with
  | rename k name ticket =>
    by_cases hk : j = k
    · by_cases hused : r.Used name <;> simp [answers, requestBy, hk, hused, ticketOf]
    · simp [answers, requestBy, hk]
  | mistake k reason ticket =>
    by_cases hk : j = k <;> simp [answers, requestBy, hk, ticketOf]
  | _ => rfl

/-- Each request of a member is answered once, in the order of the requests. -/
theorem each_request_is_answered (j : κ) (r : Room κ ν) (as : List (Act κ ν τ ι ε)) :
    (hears j r as).filterMap ticketOf = as.filterMap (requestBy j) := by
  induction as generalizing r with
  | nil => rfl
  | cons a as ih =>
    unfold hears
    rw [List.filterMap_append, told_tickets, ih]
    rcases hreq : requestBy j a with _ | ticket
    · rw [List.filterMap_cons_none hreq]
      rfl
    · rw [List.filterMap_cons_some hreq]
      rfl

/-! ## Who is there

A member that reads the log can tell who is there: a name is there from its arrival until it is
gone. -/

variable [DecidableEq ν]

def mark (name : ν) (there : Bool) : Line ν τ ι ε → Bool
  | .arrived who => there || decide (who = name)
  | .gone who => there && !decide (who = name)
  | _ => there

/-- The name arrived, and has not gone since. -/
def there (name : ν) (log : List (Line ν τ ι ε)) : Bool := log.foldl (mark name) false

/-- The name of the one that a line is about, if this one was there before. -/
def author : Line ν τ ι ε → Option ν
  | .gone who => some who
  | .message who _ => some who
  | _ => none

/-- Only those who are there speak and leave. Those who never chose a name are not counted. -/
def Orderly : List (Line ν τ ι ε) → List (Line ν τ ι ε) → Prop
  | _, [] => True
  | before, l :: ls =>
    (∀ who, author l = some who → who ≠ default → there who before = true) ∧
      Orderly (before ++ [l]) ls

/-- Each name of a member is there. -/
def Announced (r : Room κ ν) (log : List (Line ν τ ι ε)) : Prop :=
  ∀ k name, r.name k = some name → name ≠ default → there name log = true

omit [DecidableEq κ] in
theorem there_called {r : Room κ ν} {log : List (Line ν τ ι ε)} (h : r.Announced log) (k : κ)
    (hname : r.called k ≠ default) : there (r.called k) log = true := by
  unfold called at hname ⊢
  rcases hk : r.name k with _ | name
  · rw [hk] at hname
    exact absurd rfl hname
  · rw [hk] at hname
    exact h k name hk hname

omit [DecidableEq κ] [Inhabited ν] in
theorem there_snoc (name : ν) (log : List (Line ν τ ι ε)) (l : Line ν τ ι ε) :
    there name (log ++ [l]) = mark name (there name log) l := by
  unfold there
  rw [List.foldl_append]
  rfl

theorem announced_next {r : Room κ ν} {log : List (Line ν τ ι ε)} (hr : r.Apart)
    (h : r.Announced log) (a : Act κ ν τ ι ε) : (r.next a).Announced (log ++ r.posts a) := by
  cases a with
  | enter k =>
    intro i name hi hname
    rw [show r.posts (.enter k) = ([] : List (Line ν τ ι ε)) from rfl, List.append_nil]
    by_cases hk : i = k
    · subst hk
      simp only [next, Function.update_self, Option.some.injEq] at hi
      exact absurd hi.symm hname
    · exact h i name (by simpa [next, Function.update_of_ne hk] using hi) hname
  | leave k =>
    intro i name hi hname
    have hk : i ≠ k := by
      rintro rfl
      simp [next] at hi
    rw [show (r.next (.leave k : Act κ ν τ ι ε)).name i = r.name i from
      Function.update_of_ne hk _ _] at hi
    rw [show r.posts (.leave k) = ([.gone (r.called k)] : List (Line ν τ ι ε)) from rfl,
      there_snoc]
    -- the one who is gone had another name
    have hother : r.called k ≠ name := by
      rintro rfl
      unfold called at hi hname
      rcases hc : r.name k with _ | taken
      · rw [hc] at hname
        exact hname rfl
      · rw [hc] at hi hname
        exact hk (hr i k taken hi hc hname)
    simp [mark, h i name hi hname, hother]
  | rename k taken ticket =>
    intro i name hi hname
    simp only [next, posts] at hi ⊢
    by_cases hused : r.Used taken
    · rw [if_pos hused] at hi ⊢
      rw [List.append_nil]
      exact h i name hi hname
    · rw [if_neg hused] at hi ⊢
      rw [there_snoc]
      by_cases hk : i = k
      · subst hk
        simp only [Function.update_self, Option.some.injEq] at hi
        simp [mark, hi]
      · have hold := h i name (by simpa [Function.update_of_ne hk] using hi) hname
        simp [mark, hold]
  | say k words =>
    intro i name hi hname
    rw [show r.posts (.say k words) =
      ([.message (r.called k) words] : List (Line ν τ ι ε)) from rfl, there_snoc]
    exact h i name hi hname
  | mistake k reason ticket =>
    intro i name hi hname
    rw [show r.posts (.mistake k reason ticket) = ([] : List (Line ν τ ι ε)) from rfl,
      List.append_nil]
    exact h i name hi hname

omit [DecidableEq κ] in
theorem orderly_append {before ls ms : List (Line ν τ ι ε)} (h : Orderly before ls)
    (h' : Orderly (before ++ ls) ms) : Orderly before (ls ++ ms) := by
  induction ls generalizing before with
  | nil => simpa using h'
  | cons l ls ih =>
    refine ⟨h.1, ih h.2 ?_⟩
    rwa [List.append_assoc, List.singleton_append]

omit [DecidableEq κ] in
theorem orderly_posts {r : Room κ ν} {log : List (Line ν τ ι ε)} (h : r.Announced log)
    (a : Act κ ν τ ι ε) : Orderly log (r.posts a) := by
  have hthere : ∀ k who, some (r.called k) = some who → who ≠ default →
      there who log = true := by
    intro k who he hwho
    cases he
    exact there_called h k hwho
  cases a with
  | leave k => exact ⟨hthere k, trivial⟩
  | say k words => exact ⟨hthere k, trivial⟩
  | rename k name ticket =>
    simp only [posts]
    split
    · trivial
    · exact ⟨fun who he => (by cases he), trivial⟩
  | _ => trivial

/-- In the log of a room that was empty at first, whoever speaks or leaves with a name of its own
arrived before with this name, and has not gone since. -/
theorem only_who_is_there_speaks {r : Room κ ν} {before : List (Line ν τ ι ε)} (hr : r.Apart)
    (h : r.Announced before) (as : List (Act κ ν τ ι ε)) : Orderly before (log r as) := by
  induction as generalizing r before with
  | nil => trivial
  | cons a as ih =>
    exact orderly_append (orderly_posts h a) (ih (apart_next hr a) (announced_next hr h a))

end Room

end room

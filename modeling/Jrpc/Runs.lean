-- Runs of a machine that reads one input at a time, may stop with a fault, and
-- gives a list of outputs for each input. What one step keeps is proved of one
-- step, and the lemmas here carry it to runs of any length.
import Mathlib.Data.List.Basic

namespace runs

variable {σ ι ο ε τ β α : Type}

/-- One input: the state after it with the outputs of it, or a fault. -/
abbrev Step (σ ι ο ε : Type) := σ → ι → Except ε (σ × List ο)

/-- A whole run: the last state, and the outputs of all steps in order. -/
def run (step : Step σ ι ο ε) : σ → List ι → Except ε (σ × List ο)
  | s, [] => .ok (s, [])
  | s, i :: is =>
    match step s i with
    | .error e => .error e
    | .ok (s1, o) =>
      match run step s1 is with
      | .error e => .error e
      | .ok (s2, os) => .ok (s2, o ++ os)

/-- A whole run, step by step: the outputs of each step, and the state after it. -/
def trace (step : Step σ ι ο ε) : σ → List ι → Except ε (List (List ο × σ))
  | _, [] => .ok []
  | s, i :: is =>
    match step s i with
    | .error e => .error e
    | .ok (s1, o) =>
      match trace step s1 is with
      | .error e => .error e
      | .ok tr => .ok ((o, s1) :: tr)

/-- A test of a whole run, which can be computed. -/
def runEnds (step : Step σ ι ο ε) (s : σ) (is : List ι) (test : σ → List ο → Bool) : Bool :=
  match run step s is with
  | .ok (s1, os) => test s1 os
  | .error _ => false

theorem runEnds_spec {step : Step σ ι ο ε} {s : σ} {is : List ι} {test : σ → List ο → Bool}
    (h : runEnds step s is test = true) :
    ∃ s1 os, run step s is = .ok (s1, os) ∧ test s1 os = true := by
  unfold runEnds at h
  split at h
  · rename_i s1 os hr
    exact ⟨s1, os, hr, h⟩
  · cases h

/-! ## Runs in parts -/

theorem run_cons_ok {step : Step σ ι ο ε} {s s2 : σ} {i : ι} {is : List ι} {os : List ο} :
    run step s (i :: is) = .ok (s2, os) ↔
      ∃ s1 o o', step s i = .ok (s1, o) ∧ run step s1 is = .ok (s2, o') ∧ os = o ++ o' := by
  simp only [run]
  rcases step s i with e | ⟨s1, o⟩
  · simp
  · dsimp only
    rcases hr : run step s1 is with e | ⟨s3, o'⟩
    · simp [hr]
    · simp only [Except.ok.injEq, Prod.mk.injEq]
      constructor
      · rintro ⟨rfl, rfl⟩
        exact ⟨s1, o, o', ⟨rfl, rfl⟩, hr, rfl⟩
      · rintro ⟨s1', o1, o1', ⟨rfl, rfl⟩, h2, rfl⟩
        rw [hr] at h2
        cases h2
        exact ⟨rfl, rfl⟩

theorem run_append_ok {step : Step σ ι ο ε} {s s2 : σ} {is js : List ι} {os : List ο} :
    run step s (is ++ js) = .ok (s2, os) ↔
      ∃ s1 o o', run step s is = .ok (s1, o) ∧ run step s1 js = .ok (s2, o') ∧ os = o ++ o' := by
  induction is generalizing s os with
  | nil => simp [run]
  | cons i is ih =>
    simp only [List.cons_append, run_cons_ok, ih]
    constructor
    · rintro ⟨s1, o, o', h1, ⟨s3, o2, o3, h2, h3, rfl⟩, rfl⟩
      exact ⟨s3, o ++ o2, o3, ⟨s1, o, o2, h1, h2, rfl⟩, h3, by simp⟩
    · rintro ⟨s3, o, o', ⟨s1, o1, o2, h1, h2, rfl⟩, h3, rfl⟩
      exact ⟨s1, o1, o2 ++ o', h1, ⟨s3, o2, o', h2, h3, rfl⟩, by simp⟩

theorem run_one_ok {step : Step σ ι ο ε} {s s1 : σ} {i : ι} {os : List ο} :
    run step s [i] = .ok (s1, os) ↔ step s i = .ok (s1, os) := by
  rw [run_cons_ok]
  constructor
  · rintro ⟨s2, o, o', h, hnil, rfl⟩
    cases hnil
    rw [List.append_nil]
    exact h
  · intro h
    exact ⟨s1, os, [], h, rfl, (List.append_nil os).symm⟩

theorem run_snoc_ok {step : Step σ ι ο ε} {s s2 : σ} {is : List ι} {i : ι} {os : List ο} :
    run step s (is ++ [i]) = .ok (s2, os) ↔
      ∃ s1 o o', run step s is = .ok (s1, o) ∧ step s1 i = .ok (s2, o') ∧ os = o ++ o' := by
  simp only [run_append_ok, run_one_ok]

/-- Each input of a run is a step from the state that the inputs before it lead to. -/
theorem step_of_run {step : Step σ ι ο ε} {s s1 s2 : σ} {before after : List ι} {i : ι}
    {os os' : List ο} (h : run step s (before ++ i :: after) = .ok (s2, os))
    (hbefore : run step s before = .ok (s1, os')) : ∃ s3 o, step s1 i = .ok (s3, o) := by
  obtain ⟨s1', _, _, hbefore', hrest, _⟩ := run_append_ok.mp h
  rw [hbefore] at hbefore'
  cases hbefore'
  obtain ⟨s3, o, _, hstep, _, _⟩ := run_cons_ok.mp hrest
  exact ⟨s3, o, hstep⟩

/-- Each output of a run is one of a step, from the state that the inputs before it lead to. -/
theorem step_of_output {step : Step σ ι ο ε} {s s' : σ} {is : List ι} {os : List ο} {o : ο}
    (h : run step s is = .ok (s', os)) (ho : o ∈ os) :
    ∃ before i after s1 s2 os1 out, is = before ++ i :: after ∧
      run step s before = .ok (s1, os1) ∧ step s1 i = .ok (s2, out) ∧ o ∈ out := by
  induction is generalizing s os with
  | nil =>
    cases h
    cases ho
  | cons i is ih =>
    obtain ⟨s1, o1, o2, hstep, hrest, rfl⟩ := run_cons_ok.mp h
    rcases List.mem_append.mp ho with ho | ho
    · exact ⟨[], i, is, s, s1, [], o1, rfl, rfl, hstep, ho⟩
    · obtain ⟨before, j, after, s2, s3, os1, out, rfl, hbefore, hj, hout⟩ := ih hrest ho
      exact ⟨i :: before, j, after, s2, s3, o1 ++ os1, out, rfl,
        run_cons_ok.mpr ⟨s1, o1, os1, hstep, hbefore, rfl⟩, hj, hout⟩

theorem trace_cons_ok {step : Step σ ι ο ε} {s : σ} {i : ι} {is : List ι}
    {tr : List (List ο × σ)} :
    trace step s (i :: is) = .ok tr ↔
      ∃ s1 o tr', step s i = .ok (s1, o) ∧ trace step s1 is = .ok tr' ∧ tr = (o, s1) :: tr' := by
  simp only [trace]
  rcases step s i with e | ⟨s1, o⟩
  · simp
  · dsimp only
    rcases ht : trace step s1 is with e | tr'
    · simp [ht]
    · simp only [Except.ok.injEq, Prod.mk.injEq]
      constructor
      · rintro rfl
        exact ⟨s1, o, tr', ⟨rfl, rfl⟩, ht, rfl⟩
      · rintro ⟨s1', o', tr'', ⟨rfl, rfl⟩, h2, rfl⟩
        rw [ht] at h2
        cases h2
        rfl

/-- A run that ends well has a trace. -/
theorem trace_of_run {step : Step σ ι ο ε} {s s2 : σ} {is : List ι} {os : List ο}
    (h : run step s is = .ok (s2, os)) : ∃ tr, trace step s is = .ok tr := by
  induction is generalizing s os with
  | nil => exact ⟨[], rfl⟩
  | cons i is ih =>
    obtain ⟨s1, o, o', h1, h2, _⟩ := run_cons_ok.mp h
    obtain ⟨tr, htr⟩ := ih h2
    exact ⟨(o, s1) :: tr, trace_cons_ok.mpr ⟨s1, o, tr, h1, htr, rfl⟩⟩

/-! ## Invariants -/

/-- An invariant of the state and of the outputs so far holds at the end of every run. -/
theorem run_invariant {step : Step σ ι ο ε} (Inv : σ → List ο → Prop)
    (hstep : ∀ s h i s' o, Inv s h → step s i = .ok (s', o) → Inv s' (h ++ o))
    {s s' : σ} {h os : List ο} {is : List ι} (hs : Inv s h)
    (hr : run step s is = .ok (s', os)) : Inv s' (h ++ os) := by
  induction is generalizing s h os with
  | nil =>
    cases hr
    simpa using hs
  | cons i is ih =>
    obtain ⟨s1, o, o', h1, h2, rfl⟩ := run_cons_ok.mp hr
    rw [← List.append_assoc]
    exact ih (hstep _ _ _ _ _ hs h1) h2

/-- The same for runs of inputs that are all of one kind. -/
theorem run_invariant_of {step : Step σ ι ο ε} (Inv : σ → List ο → Prop) {Good : ι → Prop}
    (hstep : ∀ s h i s' o, Inv s h → Good i → step s i = .ok (s', o) → Inv s' (h ++ o))
    {s s' : σ} {h os : List ο} {is : List ι} (hs : Inv s h) (his : ∀ i ∈ is, Good i)
    (hr : run step s is = .ok (s', os)) : Inv s' (h ++ os) := by
  induction is generalizing s h os with
  | nil =>
    cases hr
    simpa using hs
  | cons i is ih =>
    obtain ⟨s1, o, o', h1, h2, rfl⟩ := run_cons_ok.mp hr
    rw [← List.append_assoc]
    exact ih (hstep _ _ _ _ _ hs (his i List.mem_cons_self) h1)
      (fun j hj => his j (List.mem_cons_of_mem i hj)) h2

/-- An invariant that may also speak of the inputs so far. -/
theorem run_invariant_inputs {step : Step σ ι ο ε} (Inv : List ι → σ → List ο → Prop)
    (hstep : ∀ is s h i s' o, Inv is s h → step s i = .ok (s', o) → Inv (is ++ [i]) s' (h ++ o))
    {s s' : σ} {is js : List ι} {h os : List ο} (hs : Inv is s h)
    (hr : run step s js = .ok (s', os)) : Inv (is ++ js) s' (h ++ os) := by
  induction js generalizing s is h os with
  | nil =>
    cases hr
    simpa using hs
  | cons j js ih =>
    obtain ⟨s1, o, o', h1, h2, rfl⟩ := run_cons_ok.mp hr
    have hrest := ih (hstep _ _ _ _ _ _ hs h1) h2
    rwa [List.append_assoc, List.append_assoc, List.singleton_append] at hrest

/-- A fault that no step gives from a state of the invariant ends no run. -/
theorem run_never {step : Step σ ι ο ε} (Inv : σ → Prop) (e : ε)
    (hstep : ∀ s i s' o, Inv s → step s i = .ok (s', o) → Inv s')
    (hsafe : ∀ s i, Inv s → step s i ≠ .error e)
    {s : σ} {is : List ι} (hs : Inv s) : run step s is ≠ .error e := by
  induction is generalizing s with
  | nil => simp [run]
  | cons i is ih =>
    simp only [run]
    rcases h1 : step s i with e' | ⟨s1, o⟩
    · intro he
      cases he
      exact hsafe s i hs h1
    · have hne := ih (hstep _ _ _ _ hs h1)
      dsimp only
      rcases h2 : run step s1 is with e' | ⟨s2, o'⟩
      · intro he
        cases he
        exact hne h2
      · simp

/-! ## Simulation -/

/-- A run of a second machine, one that is given by a relation on its states. -/
inductive Replay (next : τ → β → τ → Prop) : τ → List β → τ → Prop
  | nil (t : τ) : Replay next t [] t
  | cons {t t1 t2 : τ} {b : β} {bs : List β} :
      next t b t1 → Replay next t1 bs t2 → Replay next t (b :: bs) t2

theorem Replay.append {next : τ → β → τ → Prop} {t t1 t2 : τ} {bs cs : List β}
    (h1 : Replay next t bs t1) (h2 : Replay next t1 cs t2) : Replay next t (bs ++ cs) t2 := by
  induction h1 with
  | nil => exact h2
  | cons hb _ ih => exact .cons hb (ih h2)

theorem Replay.single {next : τ → β → τ → Prop} {t t1 : τ} {b : β} (h : next t b t1) :
    Replay next t [b] t1 := .cons h (.nil t1)

/-- What each step of the second machine keeps, each run of it keeps. -/
theorem Replay.invariant {next : τ → β → τ → Prop} (Inv : τ → List β → Prop)
    (hstep : ∀ t log b t', Inv t log → next t b t' → Inv t' (log ++ [b]))
    {t t' : τ} (log : List β) {bs : List β} (ht : Inv t log) (h : Replay next t bs t') :
    Inv t' (log ++ bs) := by
  induction h generalizing log with
  | nil => simpa using ht
  | cons hb _ ih =>
    have hrest := ih _ (hstep _ _ _ _ ht hb)
    simpa using hrest

/-- When each step of the first machine is some steps of the second one, each run of the
first is a run of the second. `M` says what the inputs, the outputs, the steps of the second
machine and the states of the first one before and after have in common. -/
theorem run_simulates {step : Step σ ι ο ε} (next : τ → β → τ → Prop) (R : σ → τ → Prop)
    (M : σ → List ι → List ο → List β → σ → Prop) (hnil : ∀ s, M s [] [] [] s)
    (happ : ∀ s is os bs s1 is' os' bs' s2, M s is os bs s1 → M s1 is' os' bs' s2 →
      M s (is ++ is') (os ++ os') (bs ++ bs') s2)
    (hstep : ∀ s t i s' o, R s t → step s i = .ok (s', o) →
      ∃ bs t', Replay next t bs t' ∧ R s' t' ∧ M s [i] o bs s')
    {s s' : σ} {t : τ} {is : List ι} {os : List ο} (hs : R s t)
    (hr : run step s is = .ok (s', os)) :
    ∃ bs t', Replay next t bs t' ∧ R s' t' ∧ M s is os bs s' := by
  induction is generalizing s t os with
  | nil =>
    cases hr
    exact ⟨[], t, .nil t, hs, hnil _⟩
  | cons i is ih =>
    obtain ⟨s1, o, o', h1, h2, rfl⟩ := run_cons_ok.mp hr
    obtain ⟨bs, t1, hb, hR1, hM1⟩ := hstep _ _ _ _ _ hs h1
    obtain ⟨bs', t2, hb', hR2, hM2⟩ := ih hR1 h2
    exact ⟨bs ++ bs', t2, hb.append hb', hR2, happ s [i] o bs s1 is o' bs' s' hM1 hM2⟩

/-- One machine inside another one: a step of the outer machine is a run of the inner one, on the
inputs that are meant for it. So a run of the outer machine is a run of the inner one too. -/
theorem run_projects {κ ω δ : Type} {step : Step σ ι ο ε} {inner : Step τ κ ω δ} (Inv : σ → Prop)
    (state : σ → τ) (inputs : ι → List κ) (outputs : List ο → List ω)
    (happ : ∀ o o', outputs (o ++ o') = outputs o ++ outputs o') (hnil : outputs [] = [])
    (hstep : ∀ s i s' o, Inv s → step s i = .ok (s', o) → Inv s' ∧
      run inner (state s) (inputs i) = .ok (state s', outputs o))
    {s s' : σ} {is : List ι} {os : List ο} (hs : Inv s) (hr : run step s is = .ok (s', os)) :
    Inv s' ∧ run inner (state s) (is.flatMap inputs) = .ok (state s', outputs os) := by
  induction is generalizing s os with
  | nil =>
    cases hr
    refine ⟨hs, ?_⟩
    rw [hnil]
    rfl
  | cons i is ih =>
    obtain ⟨s1, o, o', h1, h2, rfl⟩ := run_cons_ok.mp hr
    obtain ⟨hs1, hinner⟩ := hstep _ _ _ _ hs h1
    obtain ⟨hs', hrest⟩ := ih hs1 h2
    refine ⟨hs', ?_⟩
    rw [List.flatMap_cons, happ]
    exact run_append_ok.mpr ⟨_, _, _, hinner, hrest, rfl⟩

/-! ## What was set last -/

/-- The last value that the inputs set, or the default. -/
def lastOf (sets : ι → Option α) (default : α) (is : List ι) : α :=
  (is.filterMap sets).getLast?.getD default

@[simp] theorem lastOf_nil (sets : ι → Option α) (default : α) : lastOf sets default [] = default :=
  rfl

theorem lastOf_append (sets : ι → Option α) (default : α) (is js : List ι) :
    lastOf sets default (is ++ js) = lastOf sets (lastOf sets default is) js := by
  unfold lastOf
  rw [List.filterMap_append, List.getLast?_append]
  cases (js.filterMap sets).getLast? <;> rfl

@[simp] theorem lastOf_snoc (sets : ι → Option α) (default : α) (is : List ι) (i : ι) :
    lastOf sets default (is ++ [i]) = (sets i).getD (lastOf sets default is) := by
  rw [lastOf_append]
  unfold lastOf
  cases h : sets i <;> simp [h]

theorem lastOf_of_none {sets : ι → Option α} {is : List ι} (h : ∀ i ∈ is, sets i = none)
    (default : α) : lastOf sets default is = default := by
  unfold lastOf
  rw [List.filterMap_eq_nil_iff.mpr h]
  rfl

theorem lastOf_map (sets : ι → Option α) (default : α) (f : β → ι) (is : List β) :
    lastOf sets default (is.map f) = lastOf (fun i => sets (f i)) default is := by
  unfold lastOf
  rw [List.filterMap_map]
  rfl

theorem lastOf_congr {sets sets' : ι → Option α} {is : List ι} (h : ∀ i ∈ is, sets i = sets' i)
    (default : α) : lastOf sets default is = lastOf sets' default is := by
  unfold lastOf
  rw [List.filterMap_congr h]

/-! ## Harmless inputs -/

/-- The elements of a list that are marked `true`. -/
def keep : List Bool → List α → List α
  | true :: ms, x :: xs => x :: keep ms xs
  | false :: ms, _ :: xs => keep ms xs
  | _, _ => []

/-- Inputs that change nothing can be deleted: every other step has the same outputs, and
the same state after it. -/
theorem trace_keep {step : Step σ ι ο ε} (Inv : σ → Prop) (Drop : ι → Prop)
    (hstep : ∀ s i s' o, Inv s → step s i = .ok (s', o) → Inv s')
    (hdrop : ∀ s i s' o, Inv s → Drop i → step s i = .ok (s', o) → s' = s)
    {marks : List Bool} {is : List ι} {s : σ} {tr : List (List ο × σ)}
    (hm : List.Forall₂ (fun m i => m = false → Drop i) marks is) (hs : Inv s)
    (ht : trace step s is = .ok tr) :
    trace step s (keep marks is) = .ok (keep marks tr) := by
  induction hm generalizing s tr with
  | nil =>
    cases ht
    rfl
  | @cons m i ms is hmi _ ih =>
    obtain ⟨s1, o, tr', h1, h2, rfl⟩ := trace_cons_ok.mp ht
    cases m with
    | true =>
      have hrest := ih (hstep _ _ _ _ hs h1) h2
      exact trace_cons_ok.mpr ⟨s1, o, _, h1, hrest, rfl⟩
    | false =>
      have hsame := hdrop _ _ _ _ hs (hmi rfl) h1
      subst hsame
      exact ih hs h2

/-- Inputs that change nothing, and whose outputs do not count, can be deleted: the run ends
in the same state, with the same outputs that count. -/
theorem run_keep {step : Step σ ι ο ε} (Inv : σ → Prop) (Drop : ι → Prop) (counts : ο → Bool)
    (hstep : ∀ s i s' o, Inv s → step s i = .ok (s', o) → Inv s')
    (hdrop : ∀ s i s' o, Inv s → Drop i → step s i = .ok (s', o) →
      s' = s ∧ o.filter counts = [])
    {marks : List Bool} {is : List ι} {s s' : σ} {os : List ο}
    (hm : List.Forall₂ (fun m i => m = false → Drop i) marks is) (hs : Inv s)
    (hr : run step s is = .ok (s', os)) :
    ∃ os', run step s (keep marks is) = .ok (s', os') ∧ os'.filter counts = os.filter counts := by
  induction hm generalizing s os with
  | nil => exact ⟨os, hr, rfl⟩
  | @cons m i ms is hmi _ ih =>
    obtain ⟨s1, o, o', h1, h2, rfl⟩ := run_cons_ok.mp hr
    cases m with
    | true =>
      obtain ⟨os', hrest, hcount⟩ := ih (hstep _ _ _ _ hs h1) h2
      refine ⟨o ++ os', run_cons_ok.mpr ⟨s1, o, os', h1, hrest, rfl⟩, ?_⟩
      rw [List.filter_append, List.filter_append, hcount]
    | false =>
      obtain ⟨hsame, hnone⟩ := hdrop _ _ _ _ hs (hmi rfl) h1
      subst hsame
      obtain ⟨os', hrest, hcount⟩ := ih hs h2
      refine ⟨os', hrest, ?_⟩
      rw [List.filter_append, hnone, hcount]
      rfl

end runs

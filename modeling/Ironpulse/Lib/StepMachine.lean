import Mathlib.Data.List.Induction

/-! # Step machines: runs, invariants, guarded runs, simulation, termination

A system that takes one step after another is given by a partial function `step : σ → ε → Option σ`:
in state `s` the event `e` leads to `t` when `step s e = some t`, and cannot happen when
`step s e = none`. Every choice of an environment or a scheduler is a part of the event, so a *run*
is a list of events, and a property of every order of events is a property of every list.

* **`run step s es`**: the state after the events `es`, if all of them can happen.
* **`run_invariant`**: what every step preserves, every run preserves.
* **`RunMeets step G s es`**: every step of the run meets the guard `G`, and
  `alongRun_of_runMeets`: what every guarded step preserves holds along every guarded run.
* **`alongRun_iff_runMeets`**: a property holds in every state of a run exactly when every step
  meets a guard, from what guarded and unguarded steps do.
* **`exists_since`**: a condition that some step brought about has held since a cause.
* **`run_simulation`**: a step-by-step simulation lifts to runs.
* **`length_add_measure_le_of_run`**: a measure that every step lowers bounds the length of runs. -/

namespace StepMachine

universe u v w x

variable {σ : Type u} {ε : Type v} (step : σ → ε → Option σ)

/-! ## (1) Runs -/

/-- The state reached from `s` by the events `es`, or `none` when one of them cannot happen. -/
def run : σ → List ε → Option σ
  | s, [] => some s
  | s, e :: es => (step s e).bind fun t => run t es

/-- No event leads nowhere else. -/
@[simp] theorem run_nil (s : σ) : run step s [] = some s := rfl

/-- A run takes its first event and goes on from there. -/
theorem run_cons (s : σ) (e : ε) (es : List ε) :
    run step s (e :: es) = (step s e).bind fun t => run step t es := rfl

/-- A nonempty run is a first step followed by a run. -/
theorem run_cons_eq_some {s u : σ} {e : ε} {es : List ε} :
    run step s (e :: es) = some u ↔ ∃ t, step s e = some t ∧ run step t es = some u := by
  rw [run_cons, Option.bind_eq_some_iff]

/-- A run of `es ++ fs` is a run of `es` followed by a run of `fs`. -/
theorem run_append (s : σ) (es fs : List ε) :
    run step s (es ++ fs) = (run step s es).bind fun t => run step t fs := by
  induction es generalizing s with
  | nil => rfl
  | cons e es ih =>
      rw [List.cons_append, run_cons, run_cons, Option.bind_assoc]
      simp only [ih]

/-- The run of two lists of events passes through a state between them. -/
theorem run_append_eq_some {s u : σ} {es fs : List ε} :
    run step s (es ++ fs) = some u ↔
      ∃ t, run step s es = some t ∧ run step t fs = some u := by
  rw [run_append, Option.bind_eq_some_iff]

/-- One event appended to a run is one more step. -/
theorem run_concat_eq_some {s u : σ} {es : List ε} {e : ε} :
    run step s (es ++ [e]) = some u ↔ ∃ t, run step s es = some t ∧ step t e = some u := by
  rw [run_append_eq_some]
  simp only [run_cons_eq_some, run_nil, Option.some.injEq, exists_eq_right]

/-- `t` is reachable from `s`: some run leads there. -/
def Reachable (s t : σ) : Prop := ∃ es, run step s es = some t

variable {step}

/-- Every state reaches itself. -/
theorem Reachable.refl (s : σ) : Reachable step s s := ⟨[], rfl⟩

/-- What is reachable from a reachable state is reachable. -/
theorem Reachable.trans {s t u : σ} (hst : Reachable step s t) (htu : Reachable step t u) :
    Reachable step s u := by
  obtain ⟨es, hes⟩ := hst
  obtain ⟨fs, hfs⟩ := htu
  exact ⟨es ++ fs, (run_append_eq_some step).mpr ⟨t, hes, hfs⟩⟩

/-- A step reaches its next state. -/
theorem Reachable.of_step {s t : σ} {e : ε} (h : step s e = some t) : Reachable step s t :=
  ⟨[e], by rw [run_cons, h]; rfl⟩

/-! ## (2) Invariants -/

/-- **What every step preserves, every run preserves.** -/
theorem run_invariant {inv : σ → Prop}
    (hstep : ∀ {s e t}, inv s → step s e = some t → inv t)
    {s t : σ} {es : List ε} (hs : inv s) (h : run step s es = some t) : inv t := by
  induction es generalizing s with
  | nil => rwa [← Option.some.inj h]
  | cons e es ih =>
      obtain ⟨r, hr, hrt⟩ := (run_cons_eq_some step).mp h
      exact ih (hstep hs hr) hrt

/-- What every step preserves, every reachable state has. -/
theorem Reachable.invariant {inv : σ → Prop}
    (hstep : ∀ {s e t}, inv s → step s e = some t → inv t)
    {s t : σ} (hs : inv s) (h : Reachable step s t) : inv t := by
  obtain ⟨es, hes⟩ := h
  exact run_invariant hstep hs hes

/-! ## (3) Guarded runs -/

variable (step) in
/-- Every step of the run from `s` under `es` meets the guard `G`. Where the run gets stuck, the
events after that say nothing. -/
def RunMeets (G : σ → ε → Prop) : σ → List ε → Prop
  | _, [] => True
  | s, e :: es => ∀ t, step s e = some t → G s e ∧ RunMeets G t es

variable {G : σ → ε → Prop}

/-- A run without steps meets every guard. -/
@[simp] theorem runMeets_nil {s : σ} : RunMeets step G s [] := trivial

/-- A run meets the guard when its first step and the rest of it do. -/
theorem runMeets_cons_of_step {s t : σ} {e : ε} {es : List ε} (h : step s e = some t) :
    RunMeets step G s (e :: es) ↔ G s e ∧ RunMeets step G t es := by
  constructor
  · intro hmeets
    exact hmeets t h
  · rintro hmeets t' ht'
    rwa [← Option.some.inj (h.symm.trans ht')]

/-- A guard that can be tested is tested along a run. -/
instance decidableRunMeets [∀ s e, Decidable (G s e)] :
    ∀ s es, Decidable (RunMeets step G s es)
  | _, [] => .isTrue trivial
  | s, e :: es =>
      match h : step s e with
      | none => .isTrue fun t ht => by rw [h] at ht; cases ht
      | some t =>
          have := decidableRunMeets t es
          decidable_of_iff (G s e ∧ RunMeets step G t es) (runMeets_cons_of_step h).symm

variable (step) in
/-- `P` holds in every state that the run from `s` under `es` goes through. -/
def AlongRun (P : σ → Prop) (s : σ) (es : List ε) : Prop :=
  ∀ fs t, fs <+: es → run step s fs = some t → P t

/-- What follows from a property that holds along a run holds along it. -/
theorem AlongRun.mono {P Q : σ → Prop} (hPQ : ∀ {s}, P s → Q s) {s : σ} {es : List ε}
    (h : AlongRun step P s es) : AlongRun step Q s es :=
  fun fs t hfs ht => hPQ (h fs t hfs ht)

/-- Along a run without steps a property holds when it holds at the start. -/
@[simp] theorem alongRun_nil {P : σ → Prop} {s : σ} : AlongRun step P s [] ↔ P s := by
  constructor
  · intro h
    exact h [] s List.prefix_rfl rfl
  · intro hs fs t hfs ht
    rw [List.prefix_nil.mp hfs, run_nil, Option.some.injEq] at ht
    exact ht ▸ hs

/-- Along a run a property holds when it holds at the start and along the rest. -/
theorem alongRun_cons {P : σ → Prop} {s : σ} {e : ε} {es : List ε} :
    AlongRun step P s (e :: es) ↔ P s ∧ ∀ t, step s e = some t → AlongRun step P t es := by
  constructor
  · intro h
    refine ⟨h [] s List.nil_prefix rfl, fun t ht fs u hfs hu => ?_⟩
    exact h (e :: fs) u (List.cons_prefix_cons.mpr ⟨rfl, hfs⟩)
      ((run_cons_eq_some step).mpr ⟨t, ht, hu⟩)
  · rintro ⟨hs, h⟩ fs u hfs hu
    cases fs with
    | nil => exact Option.some.inj hu ▸ hs
    | cons f fs =>
        obtain ⟨rfl, hprefix⟩ := List.cons_prefix_cons.mp hfs
        obtain ⟨t, ht, hrun⟩ := (run_cons_eq_some step).mp hu
        exact h t ht fs u hprefix hrun

/-- **A property holds along a guarded run** when guarded steps preserve what implies it. -/
theorem alongRun_of_runMeets {inv P : σ → Prop} (hP : ∀ {s}, inv s → P s)
    (hstep : ∀ {s e t}, inv s → G s e → step s e = some t → inv t)
    {s : σ} {es : List ε} (hs : inv s) (hG : RunMeets step G s es) : AlongRun step P s es := by
  induction es generalizing s with
  | nil => exact alongRun_nil.mpr (hP hs)
  | cons e es ih =>
      refine alongRun_cons.mpr ⟨hP hs, fun t ht => ?_⟩
      obtain ⟨hGe, hGes⟩ := (runMeets_cons_of_step ht).mp hG
      exact ih (hstep hs hGe ht) hGes

/-- **A property holds along a run exactly when every step of it meets a guard.** `inv` is
preserved by guarded steps and implies the property `P`; a step that breaks the guard from a state
with `inv` leads to a state without `P`. -/
theorem alongRun_iff_runMeets {inv P : σ → Prop}
    (hP : ∀ {s}, inv s → P s)
    (hstep : ∀ {s e t}, inv s → G s e → step s e = some t → inv t)
    (hbad : ∀ {s e t}, inv s → ¬ G s e → step s e = some t → ¬ P t)
    {s : σ} (es : List ε) (hs : inv s) : AlongRun step P s es ↔ RunMeets step G s es := by
  induction es generalizing s with
  | nil => exact iff_of_true (alongRun_nil.mpr (hP hs)) runMeets_nil
  | cons e es ih =>
      rw [alongRun_cons]
      constructor
      · rintro ⟨-, hall⟩ t ht
        -- a step outside the condition would break the property at once
        have hG : G s e := by
          by_contra hne
          exact hbad hs hne ht (hall t ht [] t List.nil_prefix rfl)
        exact ⟨hG, (ih (hstep hs hG ht)).mp (hall t ht)⟩
      · intro hmeets
        refine ⟨hP hs, fun t ht => ?_⟩
        obtain ⟨hG, hrest⟩ := hmeets t ht
        exact (ih (hstep hs hG ht)).mpr hrest

/-- **Tracing a condition back to its cause.** A condition that does not hold at the start and that
a step brings about only by leading to `Q` has held since a state of the run with `Q`. -/
theorem exists_since {inv Q B : σ → Prop}
    (hinv : ∀ {s e t}, inv s → step s e = some t → inv t)
    (hstep : ∀ {s e t}, inv s → step s e = some t → B t → B s ∨ Q t)
    {s t : σ} (es : List ε) (hs : inv s) (hstart : ¬ B s) (h : run step s es = some t)
    (ht : B t) :
    ∃ fs gs u, es = fs ++ gs ∧ run step s fs = some u ∧ Q u ∧ AlongRun step B u gs := by
  induction es using List.reverseRecOn generalizing t with
  | nil =>
      rw [run_nil, Option.some.injEq] at h
      exact absurd (h ▸ ht) hstart
  | append_singleton es e ih =>
      obtain ⟨r, hr, hrt⟩ := (run_concat_eq_some step).mp h
      rcases hstep (run_invariant hinv hs hr) hrt ht with hB | hQ
      · -- the condition held before: the same cause, one step longer ago
        obtain ⟨fs, gs, u, rfl, hu, hQ, halong⟩ := ih hr hB
        refine ⟨fs, gs ++ [e], u, List.append_assoc .., hu, hQ, ?_⟩
        intro hs' v hprefix hv
        rcases List.prefix_concat_iff.mp hprefix with rfl | hprefix'
        · have hrun : run step s (fs ++ (gs ++ [e])) = some v :=
            (run_append_eq_some step).mpr ⟨u, hu, hv⟩
          rw [← List.append_assoc] at hrun
          exact Option.some.inj (h.symm.trans hrun) ▸ ht
        · exact halong hs' v hprefix' hv
      · exact ⟨es ++ [e], [], t, (List.append_nil _).symm, h, hQ, alongRun_nil.mpr ht⟩

/-! ## (4) Simulation and termination -/

/-- **A step simulation lifts to runs.** When every step of the first machine from related states is
matched by a (possibly empty) run of the second, so is every run. -/
theorem run_simulation {τ : Type w} {δ : Type x} {step' : τ → δ → Option τ} {R : σ → τ → Prop}
    (hstep : ∀ {s e s' t}, R s t → step s e = some s' → ∃ ds t', run step' t ds = some t' ∧ R s' t')
    {s s' : σ} {t : τ} {es : List ε} (hR : R s t) (h : run step s es = some s') :
    ∃ ds t', run step' t ds = some t' ∧ R s' t' := by
  induction es generalizing s t with
  | nil =>
      rw [run_nil, Option.some.injEq] at h
      exact ⟨[], t, rfl, h ▸ hR⟩
  | cons e es ih =>
      obtain ⟨r, hr, hrs⟩ := (run_cons_eq_some step).mp h
      obtain ⟨ds₁, t₁, hd₁, hR₁⟩ := hstep hR hr
      obtain ⟨ds₂, t₂, hd₂, hR₂⟩ := ih hR₁ hrs
      exact ⟨ds₁ ++ ds₂, t₂, (run_append_eq_some step').mpr ⟨t₁, hd₁, hd₂⟩, hR₂⟩

/-- A part that takes one kind of step again and again, each of them within the machine. -/
theorem reachable_of_replicate {τ : Type w} {δ : Type x} {step' : τ → δ → Option τ} {d : δ}
    (f : τ → σ) (hstep : ∀ {q r}, step' q d = some r → Reachable step (f q) (f r)) {n : Nat}
    {q r : τ} (h : run step' q (List.replicate n d) = some r) : Reachable step (f q) (f r) := by
  induction n generalizing q with
  | zero =>
      rw [← Option.some.inj h]
      exact Reachable.refl (f q)
  | succ n ih =>
      obtain ⟨p, hp, hrest⟩ := (run_cons_eq_some step').mp h
      exact (hstep hp).trans (ih hrest)

/-- **A measure that every step lowers bounds the length of runs.** -/
theorem length_add_measure_le_of_run {inv : σ → Prop} {μ : σ → Nat}
    (hstep : ∀ {s e t}, inv s → step s e = some t → inv t ∧ μ t < μ s)
    {s t : σ} {es : List ε} (hs : inv s) (h : run step s es = some t) :
    es.length + μ t ≤ μ s := by
  induction es generalizing s with
  | nil =>
      rw [run_nil, Option.some.injEq] at h
      simp [h]
  | cons e es ih =>
      obtain ⟨r, hr, hrt⟩ := (run_cons_eq_some step).mp h
      obtain ⟨hinv, hlt⟩ := hstep hs hr
      have := ih hinv hrt
      rw [List.length_cons]
      omega

end StepMachine

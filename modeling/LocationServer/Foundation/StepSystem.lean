import Mathlib.Data.List.Induction

/-!
# Labelled step systems

A system is given by a partial step function: `step state label` is the state
after `label`, or `none` when `label` is not enabled.  A run is a list of
labels; a schedule of several threads is a run whose labels name the thread
that moves.

The module proves the induction rules once: an invariant of every step is an
invariant of every run, also when the steps are only known to satisfy a side
condition (`Along`).
-/

namespace StepSystem

universe u v

variable {State : Type u} {Label : Type v}

/-- Execute the labels in order; `none` as soon as one is not enabled. -/
def run (step : State → Label → Option State) :
    State → List Label → Option State
  | state, [] => some state
  | state, label :: rest =>
      (step state label).bind fun next => run step next rest

/-- The state a run ends in. -/
def outcome (step : State → Label → Option State) (state : State)
    (labels : List Label) (runs : (run step state labels).isSome) : State :=
  (run step state labels).get runs

/-- Every step of the run is taken from a state in which `condition` holds of
the state and the label. -/
def Along (step : State → Label → Option State)
    (condition : State → Label → Prop) : State → List Label → Prop
  | _, [] => True
  | state, label :: rest =>
      condition state label ∧
        ∀ next, step state label = some next → Along step condition next rest

/-- Every state that the run goes through, the first and the last included, is
good. -/
def Always (step : State → Label → Option State)
    (good : State → Prop) (state : State) (labels : List Label) : Prop :=
  ∀ earlier later middle,
    labels = earlier ++ later →
      run step state earlier = some middle → good middle

/-- A decidable condition can be checked along a run. -/
def decidableAlong {step : State → Label → Option State}
    {condition : State → Label → Prop}
    [∀ state, DecidablePred (condition state)] :
    ∀ (state : State) (labels : List Label),
      Decidable (Along step condition state labels)
  | _, [] => isTrue trivial
  | state, label :: rest =>
      match stepped : step state label with
      | none =>
          decidable_of_iff (condition state label)
            ⟨fun holds => ⟨holds, fun _ other => by simp [stepped] at other⟩,
              fun along => along.1⟩
      | some next =>
          have : Decidable (Along step condition next rest) :=
            decidableAlong next rest
          decidable_of_iff
            (condition state label ∧ Along step condition next rest)
            ⟨fun holds =>
              ⟨holds.1, fun _ other =>
                Option.some.inj (stepped.symm.trans other) ▸ holds.2⟩,
              fun along => ⟨along.1, along.2 next stepped⟩⟩

instance {step : State → Label → Option State}
    {condition : State → Label → Prop}
    [∀ state, DecidablePred (condition state)]
    (state : State) (labels : List Label) :
    Decidable (Along step condition state labels) :=
  decidableAlong state labels

section Rules

variable {step : State → Label → Option State}
variable {condition : State → Label → Prop}

@[simp]
theorem run_nil (state : State) : run step state [] = some state :=
  rfl

theorem run_eq_outcome (state : State) (labels : List Label)
    (runs : (run step state labels).isSome) :
    run step state labels = some (outcome step state labels runs) :=
  (Option.some_get runs).symm

theorem run_cons_eq_some_iff
    {state target : State} {label : Label} {rest : List Label} :
    run step state (label :: rest) = some target ↔
      ∃ next, step state label = some next ∧
        run step next rest = some target := by
  simp [run, Option.bind_eq_some_iff]

theorem run_append (state : State) (left right : List Label) :
    run step state (left ++ right) =
      (run step state left).bind fun middle => run step middle right := by
  induction left generalizing state with
  | nil =>
      rfl
  | cons label rest inductionHypothesis =>
      simp only [List.cons_append, run, Option.bind_assoc]
      congr 1
      funext next
      exact inductionHypothesis next

theorem run_append_eq_some_iff
    {state target : State} {left right : List Label} :
    run step state (left ++ right) = some target ↔
      ∃ middle, run step state left = some middle ∧
        run step middle right = some target := by
  simp [run_append, Option.bind_eq_some_iff]

/-- A run of `labels` followed by one more step. -/
theorem run_concat_eq_some_iff
    {state target : State} {labels : List Label} {label : Label} :
    run step state (labels ++ [label]) = some target ↔
      ∃ middle, run step state labels = some middle ∧
        step middle label = some target := by
  simp [run_append_eq_some_iff, run_cons_eq_some_iff]

theorem along_cons_iff
    {state : State} {label : Label} {rest : List Label} :
    Along step condition state (label :: rest) ↔
      condition state label ∧
        ∀ next, step state label = some next →
          Along step condition next rest :=
  Iff.rfl

/-- Run induction: what holds at the start and is kept by each step whose
condition is met holds at the end. -/
theorem invariant_of_along
    {invariant : State → Prop}
    (stepKeeps :
      ∀ state label next,
        invariant state →
        condition state label →
        step state label = some next →
        invariant next)
    {state target : State} {labels : List Label}
    (initially : invariant state)
    (conditions : Along step condition state labels)
    (execution : run step state labels = some target) :
    invariant target := by
  induction labels generalizing state with
  | nil =>
      cases execution
      exact initially
  | cons label rest inductionHypothesis =>
      obtain ⟨next, stepped, continued⟩ :=
        run_cons_eq_some_iff.mp execution
      obtain ⟨conditionHere, conditionsLater⟩ := conditions
      exact
        inductionHypothesis
          (stepKeeps state label next initially conditionHere stepped)
          (conditionsLater next stepped) continued

/-- Run induction without a side condition. -/
theorem invariant_of_run
    {invariant : State → Prop}
    (stepKeeps :
      ∀ state label next,
        invariant state → step state label = some next → invariant next)
    {state target : State} {labels : List Label}
    (initially : invariant state)
    (execution : run step state labels = some target) :
    invariant target := by
  induction labels generalizing state with
  | nil =>
      cases execution
      exact initially
  | cons label rest inductionHypothesis =>
      obtain ⟨next, stepped, continued⟩ :=
        run_cons_eq_some_iff.mp execution
      exact
        inductionHypothesis
          (stepKeeps state label next initially stepped) continued

theorem always_cons_iff {good : State → Prop}
    {state next : State} {label : Label} {rest : List Label}
    (stepped : step state label = some next) :
    Always step good state (label :: rest) ↔
      good state ∧ Always step good next rest := by
  constructor
  · intro always
    refine ⟨always [] (label :: rest) state rfl rfl, ?_⟩
    intro earlier later middle split execution
    refine always (label :: earlier) later middle (by rw [split]; rfl) ?_
    exact run_cons_eq_some_iff.mpr ⟨next, stepped, execution⟩
  · intro holds earlier later middle split execution
    obtain ⟨goodHere, alwaysLater⟩ := holds
    cases earlier with
    | nil =>
        cases execution
        exact goodHere
    | cons first others =>
        obtain ⟨rfl, tail⟩ := List.cons.inj split
        obtain ⟨other, otherStepped, continued⟩ :=
          run_cons_eq_some_iff.mp execution
        rw [stepped] at otherStepped
        rw [← Option.some.inj otherStepped] at continued
        exact alwaysLater others later middle tail continued

/-- When a condition decides for each step whether it leads from a good state
to a good one, it decides for a run whether all its states are good. -/
theorem always_iff_along {base good : State → Prop}
    (baseKept :
      ∀ state label next,
        base state → step state label = some next → base next)
    (decides :
      ∀ state label next,
        base state → good state → step state label = some next →
          (good next ↔ condition state label))
    {state target : State} {labels : List Label}
    (initially : base state) (goodAtFirst : good state)
    (execution : run step state labels = some target) :
    Always step good state labels ↔ Along step condition state labels := by
  induction labels generalizing state with
  | nil =>
      refine ⟨fun _ => trivial, ?_⟩
      intro _ earlier later middle split prefixRun
      rw [(List.append_eq_nil_iff.mp split.symm).1] at prefixRun
      cases prefixRun
      exact goodAtFirst
  | cons label rest inductionHypothesis =>
      obtain ⟨next, stepped, continued⟩ :=
        run_cons_eq_some_iff.mp execution
      have nextBase := baseKept state label next initially stepped
      have decided :=
        decides state label next initially goodAtFirst stepped
      rw [always_cons_iff stepped, along_cons_iff]
      constructor
      · intro always
        have goodNext : good next :=
          always.2 [] rest next rfl rfl
        refine ⟨decided.mp goodNext, ?_⟩
        intro other otherStepped
        rw [← Option.some.inj (stepped.symm.trans otherStepped)]
        exact
          (inductionHypothesis nextBase goodNext continued).mp always.2
      · intro along
        have goodNext := decided.mpr along.1
        exact
          ⟨goodAtFirst,
            (inductionHypothesis nextBase goodNext continued).mpr
              (along.2 next stepped)⟩

/-- Run induction with the labels executed so far, for an invariant that
relates the state to the history that led to it. -/
theorem history_invariant
    {invariant : List Label → State → Prop}
    (stepKeeps :
      ∀ history state label next,
        invariant history state →
        step state label = some next →
        invariant (history ++ [label]) next)
    {state target : State} {labels : List Label}
    (initially : invariant [] state)
    (execution : run step state labels = some target) :
    invariant labels target := by
  induction labels using List.reverseRecOn generalizing target with
  | nil =>
      cases execution
      exact initially
  | append_singleton earlier label inductionHypothesis =>
      obtain ⟨middle, before, stepped⟩ :=
        run_concat_eq_some_iff.mp execution
      exact
        stepKeeps earlier middle label target
          (inductionHypothesis before) stepped

end Rules

end StepSystem

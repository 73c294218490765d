import LocationServer.Foundation.StepSystem

/-!
# Runs whose order does not matter

Two steps commute when both orders lead to the same state, or both fail.  A run
of steps that commute in pairs does not depend on their order.  When the state
never decides whether a step fails, a run fails exactly when one of its labels
does.
-/

namespace StepSystem

universe u v

variable {State : Type u} {Label : Type v}
variable {step : State → Label → Option State}

/-- The two labels lead to the same result in both orders. -/
def Commute (step : State → Label → Option State)
    (left right : Label) : Prop :=
  ∀ state, run step state [left, right] = run step state [right, left]

theorem Commute.symm {left right : Label}
    (commute : Commute step left right) : Commute step right left :=
  fun state => (commute state).symm

/-- Steps that commute in pairs can be taken in any order. -/
theorem run_perm {labels others : List Label}
    (permuted : labels.Perm others)
    (commutes : labels.Pairwise (Commute step)) (state : State) :
    run step state labels = run step state others := by
  induction permuted generalizing state with
  | nil => rfl
  | cons label permuted inductionHypothesis =>
      have rest := (List.pairwise_cons.mp commutes).2
      rw [run, run]
      congr 1
      funext next
      exact inductionHypothesis rest next
  | swap left right rest =>
      have adjacent : Commute step right left :=
        (List.pairwise_cons.mp commutes).1 left List.mem_cons_self
      have front (first second : Label) :
          run step state (first :: second :: rest) =
            (run step state [first, second]).bind fun next =>
              run step next rest := by
        rw [← run_append]
        rfl
      rw [front, front, adjacent state]
  | trans first second firstHypothesis secondHypothesis =>
      have middle := first.pairwise commutes Commute.symm
      rw [firstHypothesis commutes state, secondHypothesis middle state]

section Failures

variable {legible : Label → Prop}

/-- A run fails only at a label that fails. -/
theorem run_isSome_iff
    (decides :
      ∀ state label, (step state label).isSome = true ↔ legible label)
    (state : State) (labels : List Label) :
    (run step state labels).isSome = true ↔
      ∀ label ∈ labels, legible label := by
  induction labels generalizing state with
  | nil => simp
  | cons label rest inductionHypothesis =>
      rw [run, List.forall_mem_cons, ← decides state label]
      cases stepped : step state label with
      | none => simp
      | some next => simpa using inductionHypothesis next

end Failures

/-- Two runs of the same labels, step by step. -/
theorem related_of_runs {related : List Label → State → State → Prop}
    (stepKeeps :
      ∀ history left right label leftNext rightNext,
        related history left right →
        step left label = some leftNext →
        step right label = some rightNext →
        related (history ++ [label]) leftNext rightNext)
    {left right leftFinal rightFinal : State} {labels : List Label}
    (initially : related [] left right)
    (leftRun : run step left labels = some leftFinal)
    (rightRun : run step right labels = some rightFinal) :
    related labels leftFinal rightFinal := by
  induction labels using List.reverseRecOn generalizing
      leftFinal rightFinal with
  | nil =>
      cases leftRun
      cases rightRun
      exact initially
  | append_singleton earlier label inductionHypothesis =>
      obtain ⟨leftMiddle, leftBefore, leftStep⟩ :=
        run_concat_eq_some_iff.mp leftRun
      obtain ⟨rightMiddle, rightBefore, rightStep⟩ :=
        run_concat_eq_some_iff.mp rightRun
      exact
        stepKeeps earlier leftMiddle rightMiddle label _ _
          (inductionHypothesis leftBefore rightBefore) leftStep rightStep

end StepSystem

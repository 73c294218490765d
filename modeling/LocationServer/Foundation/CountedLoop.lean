import Mathlib.Data.List.Basic

/-!
# Loops with a machine counter

The loop `for(i = first; i <= final; i++)` with a counter of 64 bits.  It ends
when the counter can pass the final value, so not when this is the greatest
value of the counter.
-/

namespace CountedLoop

universe u

variable {State : Type u}

/-- At most `rounds` tests of the counter; the body may not end either. -/
def run (body : UInt64 → State → Option State) (final : UInt64) :
    Nat → UInt64 → State → Option State
  | 0, _, _ => none
  | rounds + 1, i, state =>
      if i ≤ final then
        (body i state).bind (run body final rounds (i + 1))
      else some state

/-- The loop steps through the counter values in order when it can pass the
last one. -/
theorem run_eq_foldl {body : UInt64 → State → Option State}
    {final : UInt64} {step : State → Nat → State}
    (passes : final.toNat + 1 < UInt64.size)
    (steps : ∀ i state, i ≤ final → body i state = some (step state i.toNat))
    {rounds : Nat} :
    ∀ {first : UInt64} (state : State),
      final.toNat + 1 - first.toNat < rounds →
        run body final rounds first state =
          some
            ((List.range' first.toNat
              (final.toNat + 1 - first.toNat)).foldl step state) := by
  induction rounds with
  | zero =>
      intro first state enough
      exact absurd enough (Nat.not_lt_zero _)
  | succ rounds inductionHypothesis =>
      intro first state enough
      rw [run]
      by_cases inRange : first ≤ final
      · have below := UInt64.le_iff_toNat_le.mp inRange
        have next : (first + 1).toNat = first.toNat + 1 := by
          rw [UInt64.toNat_add]
          exact Nat.mod_eq_of_lt (Nat.lt_of_le_of_lt
            (Nat.add_le_add_right below 1) passes)
        have count :
            final.toNat + 1 - first.toNat =
              (final.toNat + 1 - (first + 1).toNat) + 1 := by
          omega
        rw [if_pos inRange, steps first state inRange, Option.bind_some,
          inductionHypothesis _ (by omega), count, List.range'_succ,
          List.foldl_cons, next]
      · have above := Nat.lt_of_not_le (mt UInt64.le_iff_toNat_le.mpr inRange)
        have none : final.toNat + 1 - first.toNat = 0 := by omega
        rw [if_neg inRange, none]
        rfl

/-- A body that appends to a list. -/
theorem run_eq_append {Value : Type u}
    {body : UInt64 → List Value → Option (List Value)} {final : UInt64}
    {emit : Nat → List Value} (passes : final.toNat + 1 < UInt64.size)
    (appends :
      ∀ i list, i ≤ final → body i list = some (list ++ emit i.toNat))
    {rounds : Nat} {first : UInt64}
    (enough : final.toNat + 1 - first.toNat < rounds) (list : List Value) :
    run body final rounds first list =
      some
        (list ++
          (List.range' first.toNat
            (final.toNat + 1 - first.toNat)).flatMap emit) := by
  have steps :=
    @run_eq_foldl (List Value) body final (fun list i => list ++ emit i)
      passes appends rounds first list enough
  rw [steps, List.foldl_append_eq_append, List.flatMap_def]

end CountedLoop

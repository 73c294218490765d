import Mathlib.Data.List.Basic
import Mathlib.Data.List.Count

/-!
# A list of threads, one of which moves

A schedule changes one entry of the list of threads at a time.  What holds of
every thread, or of some thread, has to be looked at for that entry only.
-/

namespace Threads

universe u

variable {Thread : Type u} {threads : List Thread}
variable {index : Nat} {before after : Thread} {holds : Thread → Prop}

theorem forall_mem_set
    (others : ∀ thread ∈ threads, holds thread) (moved : holds after) :
    ∀ thread ∈ threads.set index after, holds thread := by
  intro thread member
  rcases List.mem_or_eq_of_mem_set member with unchanged | here
  · exact others thread unchanged
  · rw [here]
    exact moved

theorem forall_mem_concat
    (others : ∀ thread ∈ threads, holds thread) (new : holds after) :
    ∀ thread ∈ threads ++ [after], holds thread := by
  intro thread member
  rcases List.mem_append.mp member with earlier | latest
  · exact others thread earlier
  · rw [List.mem_singleton.mp latest]
    exact new

theorem getElem?_set_moved (present : threads[index]? = some before)
    (after : Thread) : (threads.set index after)[index]? = some after := by
  obtain ⟨bound, -⟩ := List.getElem?_eq_some_iff.mp present
  exact List.getElem?_set_self bound

theorem getElem?_set_present (present : threads[index]? = some before)
    (after : Thread) (other : Nat) :
    (threads.set index after)[other]? =
      if index = other then some after else threads[other]? := by
  by_cases here : index = other
  · rw [if_pos here, ← here]
    exact getElem?_set_moved present after
  · rw [if_neg here, List.getElem?_set_ne here]

theorem mem_set_self (present : threads[index]? = some before) :
    after ∈ threads.set index after :=
  List.mem_of_getElem? (getElem?_set_moved present after)

/-- A thread of the list after a move is the one that moved or an old one. -/
theorem getElem?_set_cases {other : Nat} {thread : Thread}
    (found : (threads.set index after)[other]? = some thread) :
    (index = other ∧ thread = after) ∨
      (index ≠ other ∧ threads[other]? = some thread) := by
  by_cases here : index = other
  · left
    refine ⟨here, ?_⟩
    obtain ⟨bound, isThread⟩ := List.getElem?_eq_some_iff.mp found
    subst here
    rw [← isThread, List.getElem_set_self]
  · right
    rw [List.getElem?_set_ne here] at found
    exact ⟨here, found⟩

/-- A thread that has a property and is not the one that moves still has it;
the one that moves has to keep it. -/
theorem exists_mem_set
    (present : threads[index]? = some before)
    (keeps : holds before → holds after)
    (someHolds : ∃ thread ∈ threads, holds thread) :
    ∃ thread ∈ threads.set index after, holds thread := by
  obtain ⟨thread, member, threadHolds⟩ := someHolds
  obtain ⟨position, bound, rfl⟩ := List.mem_iff_getElem.mp member
  by_cases same : index = position
  · subst same
    obtain ⟨_, here⟩ := List.getElem?_eq_some_iff.mp present
    rw [here] at threadHolds
    exact ⟨after, mem_set_self present, keeps threadHolds⟩
  · refine ⟨threads[position], ?_, threadHolds⟩
    have kept :
        (threads.set index after)[position]? = some threads[position] := by
      rw [List.getElem?_set_ne same, List.getElem?_eq_getElem bound]
    exact List.mem_of_getElem? kept

/-- The list around the thread that moves. -/
theorem exists_split (present : threads[index]? = some before) :
    ∃ older younger,
      threads = older ++ before :: younger ∧
        ∀ after, threads.set index after = older ++ after :: younger := by
  obtain ⟨bound, here⟩ := List.getElem?_eq_some_iff.mp present
  refine ⟨threads.take index, threads.drop (index + 1), ?_, ?_⟩
  · rw [← here, List.getElem_cons_drop, List.take_append_drop]
  · intro after
    exact List.set_eq_take_append_cons_drop.trans (if_pos bound)

/-! ## The threads that can have a property -/

section Only

variable {chosen : Nat → Prop}

theorem only_set
    (only :
      ∀ position thread,
        threads[position]? = some thread → holds thread → chosen position)
    (present : threads[index]? = some before)
    (kept : holds after → holds before) :
    ∀ position thread,
      (threads.set index after)[position]? = some thread →
        holds thread → chosen position := by
  intro position thread found threadHolds
  rcases getElem?_set_cases found with ⟨here, isAfter⟩ | ⟨-, unmoved⟩
  · rw [isAfter] at threadHolds
    rw [← here]
    exact only index before present (kept threadHolds)
  · exact only position thread unmoved threadHolds

/-- When no thread has the property, only a new one can have it. -/
theorem only_new
    (noneHolds :
      ∀ (position : Nat) thread,
        threads[position]? = some thread → ¬ holds thread)
    (new : Thread) :
    ∀ (position : Nat) thread,
      (threads ++ [new])[position]? = some thread →
        holds thread → threads.length = position := by
  intro position thread found threadHolds
  rcases Nat.lt_trichotomy position threads.length with
    older | same | beyond
  · rw [List.getElem?_append_left older] at found
    exact absurd threadHolds (noneHolds position thread found)
  · exact same.symm
  · rw [List.getElem?_eq_none (by simp; omega)] at found
    cases found

end Only

/-! ## What the threads carry -/

section Carried

variable {Item : Type*} {carries : Thread → Option Item}

/-- A move that changes nothing of what its thread carries. -/
theorem filterMap_set_of_same
    (present : threads[index]? = some before)
    (same : carries after = carries before) :
    (threads.set index after).filterMap carries =
      threads.filterMap carries := by
  obtain ⟨older, younger, split, moved⟩ := exists_split present
  rw [moved, split, List.filterMap_append, List.filterMap_append,
    List.filterMap_cons, List.filterMap_cons, same]

/-- What the threads carry, counted, changes with the thread that moves. -/
theorem count_filterMap_set [DecidableEq Item]
    (present : threads[index]? = some before) (item : Item) :
    ((threads.set index after).filterMap carries).count item +
        (carries before).toList.count item =
      (threads.filterMap carries).count item +
        (carries after).toList.count item := by
  obtain ⟨older, younger, split, moved⟩ := exists_split present
  rw [moved, split, List.filterMap_append, List.filterMap_append,
    List.filterMap_cons, List.filterMap_cons]
  cases carries before <;> cases carries after <;>
    simp [List.count_append, List.count_cons] <;> omega

/-- When one thread alone can carry something, it carries everything. -/
theorem filterMap_of_alone
    (present : threads[index]? = some before)
    (alone :
      ∀ position thread,
        threads[position]? = some thread → position ≠ index →
          carries thread = none) :
    threads.filterMap carries = (carries before).toList := by
  induction threads generalizing index with
  | nil =>
      cases present
  | cons head rest inductionHypothesis =>
      cases index with
      | zero =>
          have headBefore : head = before := by simpa using present
          have nothing : rest.filterMap carries = [] := by
            rw [List.filterMap_eq_nil_iff]
            intro thread member
            obtain ⟨position, bound, rfl⟩ := List.mem_iff_getElem.mp member
            exact alone (position + 1) _ (by simp [bound]) (by simp)
          rw [List.filterMap_cons, nothing, headBefore]
          cases carries before <;> rfl
      | succ index =>
          have headNothing : carries head = none :=
            alone 0 head rfl (by simp)
          rw [List.filterMap_cons, headNothing]
          refine inductionHypothesis (by simpa using present) ?_
          intro position thread found different
          exact
            alone (position + 1) thread (by simpa using found)
              (by omega)

theorem filterMap_set_of_alone
    (present : threads[index]? = some before)
    (alone :
      ∀ position thread,
        threads[position]? = some thread → position ≠ index →
          carries thread = none)
    (after : Thread) :
    (threads.set index after).filterMap carries =
      (carries after).toList := by
  apply filterMap_of_alone (getElem?_set_moved present after)
  intro position thread found different
  rcases getElem?_set_cases found with ⟨here, -⟩ | ⟨-, unmoved⟩
  · exact absurd here.symm different
  · exact alone position thread unmoved different

end Carried

end Threads

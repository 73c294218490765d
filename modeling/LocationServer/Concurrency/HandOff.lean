import LocationServer.Concurrency.ChunkQueue
import Mathlib.Data.List.Range

/-!
# Every chunk is handed over exactly once

The lock makes the test of `_dcs` and the removal of its front one unit, so
that no decoder takes from an empty queue.  Each chunk pushed is in exactly one
place, whatever wakes the decoders up, and a single decoder sees the chunks in
the order in which they were pushed.
-/

namespace LocationServer

open StepSystem

namespace QueueState

structure Consistent (state : QueueState) : Prop where
  /-- The thread inside a locked block is the owner of the lock. -/
  mutex :
    ∀ index pc, state.threads[index]? = some pc →
      (pc.hasLock = true ↔ state.owner = some index)
  /-- A thread about to take a chunk finds one. -/
  filled :
    ∀ index : Nat, state.threads[index]? = some ThreadPc.take → state.dcs ≠ []
  /-- The chunks fetched are those pushed and those a reader still has. -/
  numbered :
    (state.pushed ++ state.threads.filterMap ThreadPc.fetchedChunk).Perm
      (List.range state.fetched)
  /-- The chunks pushed are those parsed, those held and those queued. -/
  conserved :
    state.pushed.Perm (state.parsed ++ state.held ++ state.dcs)

section Step

variable {state next : QueueState}

/-! ## The lock -/

theorem mutex_set {index : Nat} {before after : ThreadPc}
    {owner : Option Nat}
    (mutex :
      ∀ index pc, state.threads[index]? = some pc →
        (pc.hasLock = true ↔ state.owner = some index))
    (present : state.threads[index]? = some before)
    (use : LockUse state index before after owner) :
    ∀ other pc, (state.threads.set index after)[other]? = some pc →
      (pc.hasLock = true ↔ owner = some other) := by
  intro other pc found
  rcases Threads.getElem?_set_cases found with
    ⟨here, isAfter⟩ | ⟨elsewhere, unmoved⟩
  · rw [isAfter, ← here]
    cases use with
    | keep same =>
        rw [same]
        exact mutex index before present
    | acquire free now =>
        simp [now]
    | release had now =>
        simp [now]
  · have old := mutex other pc unmoved
    cases use with
    | keep same =>
        exact old
    | acquire free now =>
        rw [free] at old
        simpa [elsewhere] using old
    | release had now =>
        rw [(mutex index before present).mp had] at old
        simpa [elsewhere] using old

theorem mutex_of_moved (consistent : state.Consistent)
    (moved : Moved state next) :
    ∀ index pc, next.threads[index]? = some pc →
      (pc.hasLock = true ↔ next.owner = some index) := by
  cases moved with
  | turn index before after owner turn =>
      exact mutex_set consistent.mutex turn.present turn.lockUse
  | fetch index present =>
      exact mutex_set consistent.mutex present (.keep rfl)
  | push index chunk present =>
      exact mutex_set consistent.mutex present (.keep rfl)
  | take index chunk rest present queue =>
      exact mutex_set consistent.mutex present (.keep rfl)
  | parse index chunk present =>
      exact mutex_set consistent.mutex present (.keep rfl)

theorem filled_of_moved (consistent : state.Consistent)
    (moved : Moved state next) :
    ∀ index : Nat, next.threads[index]? = some ThreadPc.take →
      next.dcs ≠ [] := by
  have unchanged :
      ∀ {moving : Nat} {after : ThreadPc},
        (after = .take → state.dcs ≠ []) →
        ∀ index : Nat,
          (state.threads.set moving after)[index]? = some ThreadPc.take →
            state.dcs ≠ [] := by
    intro moving after filled index found
    rcases Threads.getElem?_set_cases found with
      ⟨-, isAfter⟩ | ⟨-, unmoved⟩
    · exact filled isAfter.symm
    · exact consistent.filled index unmoved
  cases moved with
  | turn index before after owner turn =>
      exact unchanged turn.filled
  | fetch index present =>
      exact unchanged (by simp)
  | push index chunk present =>
      simp
  | parse index chunk present =>
      exact unchanged (by simp)
  | take index chunk rest present queue =>
      intro other found
      rcases Threads.getElem?_set_cases found with
        ⟨-, isAfter⟩ | ⟨elsewhere, otherTakes⟩
      · cases isAfter
      · -- two threads at `take` would both own the lock
        have owns := (consistent.mutex index .take present).mp rfl
        have otherOwns := (consistent.mutex other .take otherTakes).mp rfl
        exact absurd (Option.some.inj (owns.symm.trans otherOwns)) elsewhere

/-! ## The chunks -/

theorem numbered_of_moved (consistent : state.Consistent)
    (moved : Moved state next) :
    (next.pushed ++ next.threads.filterMap ThreadPc.fetchedChunk).Perm
      (List.range next.fetched) := by
  have numbered := consistent.numbered
  apply List.perm_iff_count.mpr
  intro item
  have before := numbered.count_eq item
  rw [List.count_append] at before
  cases moved with
  | turn index old new owner turn =>
      simp only [Threads.filterMap_set_of_same turn.present turn.fetchedChunk,
        List.count_append]
      exact before
  | fetch index present =>
      have change :=
        @Threads.count_filterMap_set _ _ _ _ (.lockToPush state.fetched) _
          ThreadPc.fetchedChunk _ present item
      simp only [ThreadPc.fetchedChunk, Option.toList_none,
        Option.toList_some, List.count_nil, List.range_succ,
        List.count_append] at change ⊢
      omega
  | push index chunk present =>
      have change :=
        @Threads.count_filterMap_set _ _ _ _ .unlockPushed _
          ThreadPc.fetchedChunk _ present item
      simp only [ThreadPc.fetchedChunk, Option.toList_none,
        Option.toList_some, List.count_nil, List.count_append] at change ⊢
      omega
  | take index chunk rest present queue =>
      have change :=
        @Threads.count_filterMap_set _ _ _ _ (.unlock (some chunk)) _
          ThreadPc.fetchedChunk _ present item
      simp only [ThreadPc.fetchedChunk, List.count_append] at change ⊢
      omega
  | parse index chunk present =>
      have change :=
        @Threads.count_filterMap_set _ _ _ _ .lockToTake _
          ThreadPc.fetchedChunk _ present item
      simp only [ThreadPc.fetchedChunk, List.count_append] at change ⊢
      omega

theorem conserved_of_moved (consistent : state.Consistent)
    (moved : Moved state next) :
    next.pushed.Perm (next.parsed ++ next.held ++ next.dcs) := by
  have conserved := consistent.conserved
  apply List.perm_iff_count.mpr
  intro item
  have before := conserved.count_eq item
  rw [held, List.count_append, List.count_append] at before
  rw [held, List.count_append, List.count_append]
  cases moved with
  | turn index old new owner turn =>
      simp only [Threads.filterMap_set_of_same turn.present turn.heldChunk]
      exact before
  | fetch index present =>
      have same :
          (state.threads.set index (.lockToPush state.fetched)).filterMap
              ThreadPc.heldChunk =
            state.threads.filterMap ThreadPc.heldChunk :=
        Threads.filterMap_set_of_same present rfl
      simp only [same]
      exact before
  | push index chunk present =>
      have change :=
        @Threads.count_filterMap_set _ _ _ _ .unlockPushed _
          ThreadPc.heldChunk _ present item
      simp only [ThreadPc.heldChunk, List.count_append] at change ⊢
      omega
  | take index chunk rest present queue =>
      have change :=
        @Threads.count_filterMap_set _ _ _ _ (.unlock (some chunk)) _
          ThreadPc.heldChunk _ present item
      simp only [ThreadPc.heldChunk, queue, Option.toList_none,
        Option.toList_some, List.count_nil, List.count_cons]
        at before change ⊢
      omega
  | parse index chunk present =>
      have change :=
        @Threads.count_filterMap_set _ _ _ _ .lockToTake _
          ThreadPc.heldChunk _ present item
      simp only [ThreadPc.heldChunk, Option.toList_none, Option.toList_some,
        List.count_nil, List.count_append] at change ⊢
      omega

theorem consistent_of_moved (consistent : state.Consistent)
    (moved : Moved state next) : next.Consistent where
  mutex := mutex_of_moved consistent moved
  filled := filled_of_moved consistent moved
  numbered := numbered_of_moved consistent moved
  conserved := conserved_of_moved consistent moved

/-! ## A single decoder -/

/-- No thread but one is a decoder. -/
def SoleDecoder (state : QueueState) (decoder : Nat) : Prop :=
  ∀ index pc, state.threads[index]? = some pc → index ≠ decoder →
    pc.isDecoder = false

theorem soleDecoder_of_moved {decoder : Nat}
    (sole : state.SoleDecoder decoder) (moved : Moved state next) :
    next.SoleDecoder decoder := by
  have unchanged :
      ∀ {moving : Nat} {before after : ThreadPc},
        state.threads[moving]? = some before →
        after.isDecoder = before.isDecoder →
        ∀ index pc, (state.threads.set moving after)[index]? = some pc →
          index ≠ decoder → pc.isDecoder = false := by
    intro moving before after present same index pc found different
    rcases Threads.getElem?_set_cases found with
      ⟨here, isAfter⟩ | ⟨-, unmoved⟩
    · rw [isAfter, same]
      exact sole moving before present (by rwa [here])
    · exact sole index pc unmoved different
  cases moved with
  | turn index before after owner turn =>
      exact unchanged turn.present turn.isDecoder
  | fetch index present =>
      exact unchanged present rfl
  | push index chunk present =>
      exact unchanged present rfl
  | take index chunk rest present queue =>
      exact unchanged present rfl
  | parse index chunk present =>
      exact unchanged present rfl

/-- What the only decoder holds is all that is held. -/
theorem held_of_soleDecoder {decoder index : Nat} {pc : ThreadPc}
    (sole : state.SoleDecoder decoder)
    (present : state.threads[index]? = some pc)
    (decodes : pc.isDecoder = true) :
    state.held = pc.heldChunk.toList := by
  have isSole : index = decoder := by
    by_contra different
    rw [sole index pc present different] at decodes
    cases decodes
  apply Threads.filterMap_of_alone present
  intro position other found elsewhere
  have reads := sole position other found (by rwa [← isSole])
  cases other with
  | unlock dc => cases reads
  | parse chunk => cases reads
  | _ => rfl

theorem ordered_of_moved {decoder : Nat}
    (sole : state.SoleDecoder decoder)
    (ordered : state.pushed = state.parsed ++ state.held ++ state.dcs)
    (moved : Moved state next) :
    next.pushed = next.parsed ++ next.held ++ next.dcs := by
  have nextSole := soleDecoder_of_moved sole moved
  cases moved with
  | turn index before after owner turn =>
      rw [held] at ordered ⊢
      rw [Threads.filterMap_set_of_same turn.present turn.heldChunk]
      exact ordered
  | fetch index present =>
      have same :
          (state.threads.set index (.lockToPush state.fetched)).filterMap
              ThreadPc.heldChunk =
            state.threads.filterMap ThreadPc.heldChunk :=
        Threads.filterMap_set_of_same present rfl
      rw [held] at ordered ⊢
      rw [same]
      exact ordered
  | push index chunk present =>
      have same :
          (state.threads.set index .unlockPushed).filterMap
              ThreadPc.heldChunk =
            state.threads.filterMap ThreadPc.heldChunk :=
        Threads.filterMap_set_of_same present rfl
      rw [held] at ordered ⊢
      rw [same, ordered, List.append_assoc _ state.dcs]
  | take index chunk rest present queue =>
      have heldBefore := held_of_soleDecoder sole present rfl
      have heldAfter :=
        held_of_soleDecoder nextSole
          (Threads.getElem?_set_moved present (.unlock (some chunk))) rfl
      rw [heldAfter, ordered, heldBefore, queue]
      simp [ThreadPc.heldChunk]
  | parse index chunk present =>
      have heldBefore := held_of_soleDecoder sole present rfl
      have heldAfter :=
        held_of_soleDecoder nextSole
          (Threads.getElem?_set_moved present .lockToTake) rfl
      rw [heldAfter, ordered, heldBefore]
      simp [ThreadPc.heldChunk]

end Step

/-! ## Runs -/

theorem consistent_start (readers decoders : Nat) :
    (start readers decoders).Consistent where
  mutex := by
    intro index pc found
    have member := List.mem_of_getElem? found
    simp only [start, List.mem_append, List.mem_replicate] at member
    rcases member with ⟨-, isFetch⟩ | ⟨-, isLock⟩
    · simp [isFetch, ThreadPc.hasLock, start]
    · simp [isLock, ThreadPc.hasLock, start]
  filled := by
    intro index found
    have member := List.mem_of_getElem? found
    simp [start] at member
  numbered := by
    simp [start, ThreadPc.fetchedChunk, List.filterMap_replicate]
  conserved := by
    simp [start, held, ThreadPc.heldChunk, List.filterMap_replicate]

theorem soleDecoder_start (readers : Nat) :
    (start readers 1).SoleDecoder readers := by
  intro index pc found different
  simp only [start, List.replicate_one] at found
  by_cases reader : index < readers
  · rw [List.getElem?_append_left (by simpa using reader)] at found
    have member := List.mem_of_getElem? found
    rw [(List.mem_replicate.mp member).2]
    rfl
  · rw [List.getElem?_eq_none (by simp; omega)] at found
    cases found

theorem consistent_of_run {readers decoders : Nat} {final : QueueState}
    {labels : List QueueLabel}
    (execution : run step (start readers decoders) labels = some final) :
    final.Consistent :=
  invariant_of_moves
    (fun _ _ consistent moved => consistent_of_moved consistent moved)
    (consistent_start readers decoders) execution

/-- In every reachable state each chunk pushed is parsed, held by a decoder or
queued, and in one of these places only; a single decoder parses the chunks in
the order in which they were pushed. -/
theorem handed_over_exactly_once
    {readers decoders : Nat} {final : QueueState}
    {labels : List QueueLabel}
    (execution : run step (start readers decoders) labels = some final) :
    final.pushed.Nodup ∧
      final.pushed.Perm (final.parsed ++ final.held ++ final.dcs) ∧
      (decoders = 1 →
        final.pushed = final.parsed ++ final.held ++ final.dcs) := by
  have consistent := consistent_of_run execution
  refine ⟨?_, consistent.conserved, ?_⟩
  · have numbered :=
      consistent.numbered.nodup_iff.mpr (List.nodup_range)
    exact (List.nodup_append.mp numbered).1
  · intro single
    subst single
    have ordered :=
      @invariant_of_moves
        (fun state =>
          state.SoleDecoder readers ∧
            state.pushed = state.parsed ++ state.held ++ state.dcs)
        (fun state next holds moved =>
          ⟨soleDecoder_of_moved holds.1 moved,
            ordered_of_moved holds.1 holds.2 moved⟩)
        (start readers 1) final labels
        ⟨soleDecoder_start readers, by
          simp [start, held, ThreadPc.heldChunk,
            List.filterMap_replicate]⟩
        execution
    exact ordered.2

/-- A decoder that waits, is notified and takes the first of two chunks. -/
theorem handed_over_after_wait :
    (outcome step (start 1 1)
      [.move 1, .move 1, .move 1, .move 0, .move 0, .move 0, .move 0,
        .notify 0 (some 1), .move 1, .move 1, .move 1, .move 1, .move 0,
        .move 0, .move 0, .move 1] (by decide)).pushed = [0] ++ [] ++ [1] :=
  (handed_over_exactly_once
    (run_eq_outcome (start 1 1)
      [.move 1, .move 1, .move 1, .move 0, .move 0, .move 0, .move 0,
        .notify 0 (some 1), .move 1, .move 1, .move 1, .move 1, .move 0,
        .move 0, .move 0, .move 1] (by decide))).2.2 rfl

end QueueState

end LocationServer

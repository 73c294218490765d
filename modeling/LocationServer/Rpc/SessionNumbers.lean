import LocationServer.Rpc.Sequence
import LocationServer.Rpc.SessionSafety

/-!
# The numbers of a session

As long as no side draws a number twice, every number that is drawn is none of
those that are in use: these have all been drawn before.
-/

namespace LocationServer

open StepSystem

/-- The number that a label draws for the side. -/
def SessionLabel.drawn? (side : Side) : SessionLabel → Option Int32
  | .draw actor sequence => if actor = side then some sequence else none
  | _ => none

namespace Session

variable {session next : Session} {label : SessionLabel}
variable {draws : Side → List Int32}

/-- The numbers that are in use are among those that have been drawn. -/
structure Accounted (draws : Side → List Int32) (session : Session) :
    Prop where
  known : session.AnswersKnown
  drawn : ∀ side, (session side).drawn ⊆ draws side
  engaged :
    ∀ side sequence index, (sequence, index) ∈ session.engaged side →
      sequence ∈ draws side

/-- The draws after one more step. -/
def drawsAfter (draws : Side → List Int32) (label : SessionLabel)
    (side : Side) : List Int32 :=
  draws side ++ (label.drawn? side).toList

theorem drawsAfter_draw (draws : Side → List Int32) (side : Side)
    (sequence : Int32) :
    drawsAfter draws (.draw side sequence) side =
      draws side ++ [sequence] := by
  rw [drawsAfter, SessionLabel.drawn?, if_pos rfl]
  rfl

theorem Accounted.fresh (accounted : Accounted draws session)
    (distinct : ∀ side, (drawsAfter draws label side).Nodup) :
    session.Fresh label := by
  cases label with
  | draw side sequence =>
      have unused : sequence ∉ draws side := by
        intro member
        have nodup := distinct side
        rw [drawsAfter_draw] at nodup
        exact
          (List.nodup_append.mp nodup).2.2 sequence member sequence
            (List.mem_singleton.mpr rfl) rfl
      refine ⟨fun isDrawn => unused (accounted.drawn side isDrawn), ?_⟩
      intro isEngaged
      obtain ⟨⟨number, index⟩, member, rfl⟩ := List.mem_map.mp isEngaged
      exact unused (accounted.engaged side number index member)
  | _ => trivial

theorem Accounted.of_moved (accounted : Accounted draws session)
    (moved : Moved session label next) :
    Accounted (drawsAfter draws label) next where
  known := answersKnown_of_moved accounted.known moved
  drawn := by
    intro side
    have grows : draws side ⊆ drawsAfter draws label side :=
      List.subset_append_left _ _
    rcases drawn_of_moved moved side with fewer | ⟨number, rfl, more⟩
    · intro number member
      exact grows (accounted.drawn side (fewer.subset member))
    · rw [more, drawsAfter_draw]
      exact
        List.append_subset.mpr
          ⟨List.Subset.trans (accounted.drawn side)
            (List.subset_append_left _ _), List.subset_append_right _ _⟩
  engaged := by
    intro side sequence index member
    have grows : draws side ⊆ drawsAfter draws label side :=
      List.subset_append_left _ _
    rcases engaged_of_moved accounted.known moved member with
      older | ⟨-, position, kind, timeout, -, drawn, -⟩
    · exact grows (accounted.engaged side sequence index older)
    · exact grows (accounted.drawn side (List.mem_of_getElem? drawn))

theorem along_fresh_of_accounted {labels : List SessionLabel}
    (accounted : Accounted draws session)
    (distinct :
      ∀ side, (draws side ++
        labels.filterMap (SessionLabel.drawn? side)).Nodup) :
    Along step Fresh session labels := by
  induction labels generalizing session draws with
  | nil =>
      trivial
  | cons label labels inductionHypothesis =>
      have split :
          ∀ side, drawsAfter draws label side ++
              labels.filterMap (SessionLabel.drawn? side) =
            draws side ++
              (label :: labels).filterMap (SessionLabel.drawn? side) := by
        intro side
        rw [drawsAfter, List.append_assoc, List.filterMap_cons]
        cases label.drawn? side <;> rfl
      have distinctNow : ∀ side, (drawsAfter draws label side).Nodup := by
        intro side
        have all := distinct side
        rw [← split] at all
        exact all.of_append_left
      refine ⟨accounted.fresh distinctNow, ?_⟩
      intro next stepped
      apply inductionHypothesis (accounted.of_moved (moved_of_step stepped))
      intro side
      rw [split]
      exact distinct side

/-- In a run in which no side draws a number twice, no number is drawn that is
in use. -/
theorem along_fresh_of_distinct {labels : List SessionLabel}
    (distinct :
      ∀ side, (labels.filterMap (SessionLabel.drawn? side)).Nodup) :
    Along step Fresh start labels := by
  have accounted : Accounted (fun _ => []) start := by
    refine ⟨consistent_start.known, ?_, ?_⟩
    · intro side
      exact List.Subset.refl _
    · intro side sequence index member
      cases member
  exact along_fresh_of_accounted accounted distinct

/-- This is so when each side draws one number at a time and its counter has
not started again. -/
theorem along_fresh_of_counted {labels : List SessionLabel}
    {draws : Side → Nat}
    (counted :
      ∀ side, labels.filterMap (SessionLabel.drawn? side) =
        (List.range (draws side)).map fun earlier =>
          sequenceAfter (earlier + 1))
    (few : ∀ side, draws side ≤ sequenceLimit) :
    Along step Fresh start labels := by
  apply along_fresh_of_distinct
  intro side
  rw [counted side]
  exact (sequenceAfter_nodup_iff (draws side)).mpr (few side)

end Session

end LocationServer

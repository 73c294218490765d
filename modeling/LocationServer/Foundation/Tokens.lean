import Mathlib.Data.List.Basic
import Mathlib.Data.List.Chain
import Mathlib.Data.List.TakeWhile

/-!
# Splitting with runs of separators

A split that cuts a run of separators only once is a split of the text in
which every run was shortened to one separator.  The nonempty pieces do not
depend on it; the text between the first piece and the end does, unless no two
separators stand side by side.
-/

namespace Tokens

universe u

variable {α : Type u} [DecidableEq α] {separator : α}

/-! ## Shortened runs -/

/-- Shorten every run of the separator to one; `after` tells that a separator
came just before the text. -/
def squeezeFrom (separator : α) : Bool → List α → List α
  | _, [] => []
  | after, letter :: text =>
      if letter = separator then
        if after then squeezeFrom separator true text
        else letter :: squeezeFrom separator true text
      else letter :: squeezeFrom separator false text

/-- The text with every run of the separator shortened to one. -/
def squeeze (separator : α) (text : List α) : List α :=
  squeezeFrom separator false text

/-- No two separators stand side by side. -/
def Single (separator : α) (text : List α) : Prop :=
  text.IsChain fun left right => ¬(left = separator ∧ right = separator)

instance (separator : α) (text : List α) :
    Decidable (Single separator text) :=
  inferInstanceAs (Decidable (List.IsChain _ text))

theorem squeezeFrom_sublist (after : Bool) (text : List α) :
    (squeezeFrom separator after text).Sublist text := by
  induction text generalizing after with
  | nil => exact List.Sublist.refl _
  | cons letter text inductionHypothesis =>
      rw [squeezeFrom]
      split
      · split
        · exact (inductionHypothesis true).cons letter
        · exact (inductionHypothesis true).cons_cons letter
      · exact (inductionHypothesis false).cons_cons letter

/-- Only separators are dropped. -/
theorem filter_squeezeFrom (after : Bool) (text : List α) :
    (squeezeFrom separator after text).filter (· ≠ separator) =
      text.filter (· ≠ separator) := by
  induction text generalizing after with
  | nil => rfl
  | cons letter text inductionHypothesis =>
      rw [squeezeFrom]
      by_cases cuts : letter = separator
      · rw [if_pos cuts]
        cases after with
        | false => simpa [cuts] using inductionHypothesis true
        | true => simpa [cuts] using inductionHypothesis true
      · rw [if_neg cuts]
        simpa [cuts] using inductionHypothesis false

/-- What is left has single separators, also behind one. -/
theorem single_cons_squeezeFrom (text : List α) :
    Single separator (separator :: squeezeFrom separator true text) ∧
      Single separator (squeezeFrom separator false text) ∧
      ∀ letter, letter ≠ separator →
        Single separator (letter :: squeezeFrom separator false text) := by
  induction text with
  | nil => simp [squeezeFrom, Single]
  | cons letter text inductionHypothesis =>
      obtain ⟨behind, plain, behindOther⟩ := inductionHypothesis
      by_cases cuts : letter = separator
      · subst cuts
        simp only [squeezeFrom, if_true, Bool.false_eq_true, if_false]
        refine ⟨behind, behind, ?_⟩
        intro other different
        exact List.isChain_cons_cons.mpr
          ⟨fun both => different both.1, behind⟩
      · simp only [squeezeFrom, cuts, if_false]
        have rest := behindOther letter cuts
        refine ⟨?_, rest, ?_⟩
        · exact List.isChain_cons_cons.mpr ⟨fun both => cuts both.2, rest⟩
        · intro other different
          exact List.isChain_cons_cons.mpr ⟨fun both => cuts both.2, rest⟩

theorem squeezeFrom_eq_self {after : Bool} {text : List α}
    (single : Single separator
      (if after then separator :: text else text)) :
    squeezeFrom separator after text = text := by
  induction text generalizing after with
  | nil => rfl
  | cons letter text inductionHypothesis =>
      rw [squeezeFrom]
      by_cases cuts : letter = separator
      · subst cuts
        cases after with
        | false =>
            simp only [if_true, Bool.false_eq_true, if_false]
            exact congrArg (letter :: ·)
              (@inductionHypothesis true single)
        | true =>
            have sideBySide := (List.isChain_cons_cons.mp single).1
            exact absurd ⟨rfl, rfl⟩ sideBySide
      · rw [if_neg cuts]
        have rest : Single separator (letter :: text) := by
          cases after with
          | false => exact single
          | true => exact (List.isChain_cons_cons.mp single).2
        exact congrArg (letter :: ·)
          (@inductionHypothesis false rest.tail)

theorem squeeze_eq_self_iff {text : List α} :
    squeeze separator text = text ↔ Single separator text := by
  constructor
  · intro same
    rw [← same]
    exact (single_cons_squeezeFrom text).2.1
  · intro single
    exact squeezeFrom_eq_self single

/-- A text keeps all its separators only if none stand side by side. -/
theorem single_of_count_squeeze {text : List α}
    (sameCount : (squeeze separator text).count separator =
      text.count separator) :
    Single separator text := by
  rw [← squeeze_eq_self_iff]
  apply (squeezeFrom_sublist false text).eq_of_length
  have others :=
    congrArg List.length (@filter_squeezeFrom α _ separator false text)
  have whole (list : List α) :
      list.length =
        list.count separator + (list.filter (· ≠ separator)).length := by
    rw [List.count, List.length_eq_countP_add_countP (· == separator),
      ← List.countP_eq_length_filter]
    congr 2
    funext letter
    simp
  rw [whole (squeezeFrom separator false text), whole text, others]
  exact congrArg (· + _) sameCount

theorem takeWhile_squeeze (text : List α) :
    (squeeze separator text).takeWhile (· ≠ separator) =
      text.takeWhile (· ≠ separator) := by
  rw [squeeze]
  induction text with
  | nil => rfl
  | cons letter text inductionHypothesis =>
      by_cases cuts : letter = separator
      · simp [squeezeFrom, cuts]
      · simpa [squeezeFrom, cuts] using inductionHypothesis

/-! ## Pieces -/

theorem splitOn_squeezeFrom (text : List α) :
    ((squeezeFrom separator true text).splitOn separator).filter (· ≠ []) =
        (text.splitOn separator).filter (· ≠ []) ∧
      ∃ first short long,
        (squeezeFrom separator false text).splitOn separator =
            first :: short ∧
          text.splitOn separator = first :: long ∧
          short.filter (· ≠ []) = long.filter (· ≠ []) := by
  induction text with
  | nil => exact ⟨rfl, [], [], [], rfl, rfl, rfl⟩
  | cons letter text inductionHypothesis =>
      obtain ⟨behind, first, short, long, isShort, isLong, same⟩ :=
        inductionHypothesis
      by_cases cuts : letter = separator
      · subst cuts
        simp only [squeezeFrom, if_true, Bool.false_eq_true, if_false,
          List.splitOn_cons_eq_if_modifyHead, beq_self_eq_true]
        exact ⟨by simpa using behind, [], _, _, rfl, rfl, behind⟩
      · have isLetter : (letter == separator) = false := by simpa using cuts
        simp only [squeezeFrom, cuts, if_false, isLetter,
          List.splitOn_cons_eq_if_modifyHead, Bool.false_eq_true, isShort,
          isLong, List.modifyHead_cons]
        exact ⟨by simpa using same, letter :: first, short, long, rfl, rfl,
          same⟩

/-- The nonempty pieces do not depend on the lengths of the runs. -/
theorem filter_splitOn_squeeze (text : List α) :
    ((squeeze separator text).splitOn separator).filter (· ≠ []) =
      (text.splitOn separator).filter (· ≠ []) := by
  obtain ⟨-, first, short, long, isShort, isLong, same⟩ :=
    @splitOn_squeezeFrom α _ separator text
  rw [squeeze, isShort, isLong, List.filter_cons, List.filter_cons, same]

/-- A piece consists of letters of the text other than the separator. -/
theorem mem_of_mem_splitOn {text piece : List α} {letter : α}
    (isPiece : piece ∈ text.splitOn separator) (member : letter ∈ piece) :
    letter ∈ text ∧ letter ≠ separator := by
  induction text generalizing piece with
  | nil =>
      rw [List.splitOn_nil, List.mem_singleton] at isPiece
      rw [isPiece] at member
      cases member
  | cons first text inductionHypothesis =>
      rw [List.splitOn_cons_eq_if_modifyHead] at isPiece
      by_cases cuts : first = separator
      · rw [if_pos (by simpa using cuts), List.mem_cons] at isPiece
        rcases isPiece with rfl | isPiece
        · cases member
        · obtain ⟨inText, different⟩ := inductionHypothesis isPiece member
          exact ⟨List.mem_cons_of_mem _ inText, different⟩
      · rw [if_neg (by simpa using cuts)] at isPiece
        cases pieces : text.splitOn separator with
        | nil => exact absurd pieces (List.splitOn_ne_nil _ _)
        | cons other others =>
            rw [pieces, List.modifyHead_cons, List.mem_cons] at isPiece
            rw [pieces] at inductionHypothesis
            rcases isPiece with rfl | isPiece
            · rcases List.mem_cons.mp member with rfl | inOther
              · exact ⟨List.mem_cons_self, cuts⟩
              · obtain ⟨inText, different⟩ :=
                  inductionHypothesis List.mem_cons_self inOther
                exact ⟨List.mem_cons_of_mem _ inText, different⟩
            · obtain ⟨inText, different⟩ :=
                inductionHypothesis (List.mem_cons_of_mem _ isPiece) member
              exact ⟨List.mem_cons_of_mem _ inText, different⟩

/-! ## The first separator -/

/-- The text before and after the first separator, if there is one. -/
def cutAt (separator : α) (text : List α) : Option (List α × List α) :=
  if separator ∈ text then
    some (text.takeWhile (· ≠ separator),
      (text.dropWhile (· ≠ separator)).tail)
  else none

theorem cutAt_eq_none_iff {text : List α} :
    cutAt separator text = none ↔ separator ∉ text := by
  simp [cutAt]

theorem cutAt_append_cons {before : List α} (free : separator ∉ before)
    (after : List α) :
    cutAt separator (before ++ separator :: after) =
      some (before, after) := by
  have passes : ∀ letter ∈ before, decide (letter ≠ separator) = true := by
    intro letter member
    simpa using fun same : letter = separator => free (same ▸ member)
  rw [cutAt, if_pos (by simp), List.takeWhile_append_of_pos passes,
    List.dropWhile_append_of_pos passes]
  simp

theorem eq_of_cutAt {text before after : List α}
    (cut : cutAt separator text = some (before, after)) :
    text = before ++ separator :: after ∧ separator ∉ before := by
  by_cases member : separator ∈ text
  · obtain ⟨first, rest, parts, free⟩ := List.eq_append_cons_of_mem member
    rw [parts, cutAt_append_cons free] at cut
    obtain ⟨rfl, rfl⟩ := Prod.mk.inj (Option.some.inj cut)
    exact ⟨parts, free⟩
  · rw [cutAt_eq_none_iff.mpr member] at cut
    cases cut

theorem cutAt_append_left {lead : List α} (free : separator ∉ lead)
    (text : List α) :
    cutAt separator (lead ++ text) =
      (cutAt separator text).map fun parts =>
        (lead ++ parts.1, parts.2) := by
  cases cut : cutAt separator text with
  | none =>
      rw [cutAt_eq_none_iff] at cut
      rw [Option.map_none, cutAt_eq_none_iff, List.mem_append]
      exact fun member => member.elim free cut
  | some parts =>
      obtain ⟨before, after⟩ := parts
      obtain ⟨rfl, beforeFree⟩ := eq_of_cutAt cut
      rw [← List.append_assoc, cutAt_append_cons]
      · rfl
      · rw [List.mem_append]
        exact fun member => member.elim free beforeFree

theorem cutAt_append_right {trail : List α} (free : separator ∉ trail)
    (text : List α) :
    cutAt separator (text ++ trail) =
      (cutAt separator text).map fun parts =>
        (parts.1, parts.2 ++ trail) := by
  cases cut : cutAt separator text with
  | none =>
      rw [cutAt_eq_none_iff] at cut
      rw [Option.map_none, cutAt_eq_none_iff, List.mem_append]
      exact fun member => member.elim cut free
  | some parts =>
      obtain ⟨before, after⟩ := parts
      obtain ⟨rfl, beforeFree⟩ := eq_of_cutAt cut
      rw [List.append_assoc, List.cons_append, cutAt_append_cons beforeFree]
      rfl

/-- The first piece ends at the first separator, and the pieces of the rest
follow. -/
theorem splitOn_eq (text : List α) :
    text.splitOn separator =
      match cutAt separator text with
      | none => [text]
      | some (before, after) => before :: after.splitOn separator := by
  cases cut : cutAt separator text with
  | none => exact List.splitOn_eq_singleton (cutAt_eq_none_iff.mp cut)
  | some parts =>
      obtain ⟨before, after⟩ := parts
      obtain ⟨rfl, free⟩ := eq_of_cutAt cut
      exact List.splitOn_append_cons_self_of_not_mem free after

theorem head_splitOn (text : List α) :
    ∃ pieces, text.splitOn separator =
      text.takeWhile (· ≠ separator) :: pieces := by
  rw [splitOn_eq, cutAt]
  by_cases member : separator ∈ text
  · rw [if_pos member]
    exact ⟨_, rfl⟩
  · rw [if_neg member, List.takeWhile_eq_self_iff.mpr]
    · exact ⟨[], rfl⟩
    · intro letter isLetter
      simpa using fun same : letter = separator => member (same ▸ isLetter)

/-! ## Texts around a run -/

theorem squeezeFrom_of_free {text : List α} (free : separator ∉ text)
    (after : Bool) : squeezeFrom separator after text = text := by
  induction text generalizing after with
  | nil => rfl
  | cons letter text inductionHypothesis =>
      rw [List.mem_cons, not_or] at free
      rw [squeezeFrom, if_neg (Ne.symm free.1), inductionHypothesis free.2]

theorem squeeze_append_left {lead : List α} (free : separator ∉ lead)
    (text : List α) :
    squeeze separator (lead ++ text) = lead ++ squeeze separator text := by
  induction lead with
  | nil => rfl
  | cons letter lead inductionHypothesis =>
      rw [List.mem_cons, not_or] at free
      rw [List.cons_append, squeeze, squeezeFrom, if_neg (Ne.symm free.1)]
      exact congrArg (letter :: ·) (inductionHypothesis free.2)

theorem squeezeFrom_append_right {trail : List α}
    (free : separator ∉ trail) (after : Bool) (text : List α) :
    squeezeFrom separator after (text ++ trail) =
      squeezeFrom separator after text ++ trail := by
  induction text generalizing after with
  | nil => exact squeezeFrom_of_free free after
  | cons letter text inductionHypothesis =>
      rw [List.cons_append, squeezeFrom, squeezeFrom, inductionHypothesis,
        inductionHypothesis]
      split
      · split <;> rfl
      · rfl

theorem squeeze_append_right {trail : List α} (free : separator ∉ trail)
    (text : List α) :
    squeeze separator (text ++ trail) = squeeze separator text ++ trail :=
  squeezeFrom_append_right free false text

/-- Up to the first separator nothing is shortened. -/
theorem squeeze_of_cutAt {text before after : List α}
    (cut : cutAt separator text = some (before, after)) :
    squeeze separator text =
      before ++ separator :: squeezeFrom separator true after := by
  obtain ⟨rfl, free⟩ := eq_of_cutAt cut
  rw [squeeze_append_left free, squeeze, squeezeFrom, if_pos rfl]
  rfl

/-- A reading that skips empty pieces does not see the lengths of the runs. -/
theorem filterMap_splitOn_squeeze {β : Type*} {read : List α → Option β}
    (skips : read [] = none) (text : List α) :
    ((squeeze separator text).splitOn separator).filterMap read =
      (text.splitOn separator).filterMap read := by
  have visible (pieces : List (List α)) :
      pieces.filterMap read =
        (pieces.filter (· ≠ [])).filterMap read := by
    rw [List.filterMap_filter]
    congr 1
    funext piece
    by_cases empty : piece = []
    · simp [empty, skips]
    · simp [empty]
  rw [visible, filter_splitOn_squeeze, ← visible]

/-! ## Space at the ends -/

/-- The text without the space at both ends. -/
def strip (space : α → Bool) (text : List α) : List α :=
  ((text.dropWhile space).reverse.dropWhile space).reverse

section Strip

variable {space : α → Bool}

omit [DecidableEq α] in
theorem strip_append_left {lead : List α}
    (isSpace : ∀ letter ∈ lead, space letter = true) (text : List α) :
    strip space (lead ++ text) = strip space text := by
  rw [strip, strip, List.dropWhile_append_of_pos isSpace]

omit [DecidableEq α] in
theorem strip_append_right {trail : List α}
    (isSpace : ∀ letter ∈ trail, space letter = true) (text : List α) :
    strip space (text ++ trail) = strip space text := by
  have nothing : trail.dropWhile space = [] :=
    List.dropWhile_eq_nil_iff.mpr isSpace
  rw [strip, strip, List.dropWhile_append]
  split
  · rename_i blank
    rw [List.isEmpty_iff.mp blank, nothing]
  · rw [List.reverse_append, List.dropWhile_append_of_pos]
    intro letter member
    exact isSpace letter (List.mem_reverse.mp member)

omit [DecidableEq α] in
/-- A text is its inside between two runs of space. -/
theorem exists_strip (space : α → Bool) (text : List α) :
    ∃ lead trail, text = lead ++ (strip space text ++ trail) ∧
      (∀ letter ∈ lead, space letter = true) ∧
      ∀ letter ∈ trail, space letter = true := by
  refine ⟨text.takeWhile space,
    ((text.dropWhile space).reverse.takeWhile space).reverse, ?_, ?_, ?_⟩
  · rw [strip, ← List.reverse_append, List.takeWhile_append_dropWhile,
      List.reverse_reverse, List.takeWhile_append_dropWhile]
  · intro letter member
    exact List.mem_takeWhile_imp member
  · intro letter member
    exact List.mem_takeWhile_imp (List.mem_reverse.mp member)

omit [DecidableEq α] in
theorem mem_of_mem_strip {text : List α} {letter : α}
    (member : letter ∈ strip space text) : letter ∈ text := by
  obtain ⟨lead, trail, parts, -, -⟩ := exists_strip space text
  rw [parts]
  exact List.mem_append_right _ (List.mem_append_left _ member)

theorem count_strip {letter : α} (visible : space letter = false)
    (text : List α) : (strip space text).count letter = text.count letter := by
  obtain ⟨lead, trail, parts, leadSpace, trailSpace⟩ :=
    exists_strip space text
  have absent {part : List α}
      (isSpace : ∀ other ∈ part, space other = true) :
      part.count letter = 0 := by
    apply List.count_eq_zero_of_not_mem
    intro member
    rw [isSpace letter member] at visible
    cases visible
  have counted := congrArg (List.count letter) parts
  rw [List.count_append, List.count_append, absent leadSpace,
    absent trailSpace] at counted
  omega

end Strip

end Tokens

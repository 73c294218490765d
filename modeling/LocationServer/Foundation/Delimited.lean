import Mathlib.Data.List.DropRight

/-!
# Delimited frames

Search for a word in a text, frames that begin and end with a marker, and
frames that arrive in pieces and are taken out of them one at a time.
-/

namespace Framing

universe u

variable {α : Type u}

/-! ## Search -/

/-- The text has no occurrence of the word. -/
def Missing (word text : List α) : Prop :=
  ∀ before after, text ≠ before ++ word ++ after

section Search

variable [DecidableEq α] {word : List α}

/-- Where the first occurrence of the word in the text begins. -/
def indexOf (word : List α) : List α → Option Nat
  | [] => if word = [] then some 0 else none
  | letter :: text =>
      if word.isPrefixOf (letter :: text) then some 0
      else (indexOf word text).map (· + 1)

theorem indexOf_of_isPrefix {text : List α} (starts : word <+: text) :
    indexOf word text = some 0 := by
  cases text with
  | nil => exact if_pos (List.prefix_nil.mp starts)
  | cons letter text =>
      exact if_pos (List.isPrefixOf_iff_prefix.mpr starts)

theorem indexOf_eq_none_iff {text : List α} :
    indexOf word text = none ↔ Missing word text := by
  induction text with
  | nil =>
      by_cases empty : word = [] <;> simp [indexOf, Missing, empty]
  | cons letter text inductionHypothesis =>
      constructor
      · intro missing before after split
        cases before with
        | nil =>
            have starts : word <+: letter :: text := ⟨after, split.symm⟩
            rw [indexOf_of_isPrefix starts] at missing
            cases missing
        | cons first before =>
            obtain ⟨rfl, rest⟩ := List.cons.inj split
            rw [indexOf] at missing
            split at missing
            · cases missing
            · exact inductionHypothesis.mp (Option.map_eq_none_iff.mp missing)
                before after rest
      · intro missing
        have notHere : ¬word.isPrefixOf (letter :: text) = true := by
          intro here
          obtain ⟨after, split⟩ := List.isPrefixOf_iff_prefix.mp here
          exact missing [] after split.symm
        have notLater : indexOf word text = none := by
          apply inductionHypothesis.mpr
          intro before after split
          exact missing (letter :: before) after (congrArg (letter :: ·) split)
        rw [indexOf, if_neg notHere, notLater]
        rfl

/-- The first occurrence is the one that no other precedes. -/
theorem indexOf_append {before : List α} (after : List α)
    (first : ∀ earlier later,
      before ++ word = earlier ++ word ++ later → later = []) :
    indexOf word (before ++ word ++ after) = some before.length := by
  induction before with
  | nil => exact indexOf_of_isPrefix (List.prefix_append word after)
  | cons letter before inductionHypothesis =>
      have notHere :
          ¬word.isPrefixOf (letter :: (before ++ word ++ after)) = true := by
        intro here
        have starts := List.isPrefixOf_iff_prefix.mp here
        have shorter : word <+: letter :: before ++ word := by
          apply List.prefix_of_prefix_length_le starts
          · exact List.prefix_append (letter :: before ++ word) after
          · rw [List.length_append]
            exact Nat.le_add_left _ _
        obtain ⟨later, split⟩ := shorter
        obtain rfl := first [] later split.symm
        have lengths := congrArg List.length split
        simp only [List.append_nil, List.length_append, List.length_cons]
          at lengths
        omega
      rw [List.cons_append, List.cons_append, indexOf, if_neg notHere,
        inductionHypothesis]
      · rfl
      · intro earlier later split
        exact first (letter :: earlier) later (congrArg (letter :: ·) split)

theorem exists_of_indexOf {text : List α} {index : Nat}
    (found : indexOf word text = some index) :
    ∃ before after,
      text = before ++ word ++ after ∧ before.length = index := by
  induction text generalizing index with
  | nil =>
      rw [indexOf, Option.ite_none_right_eq_some] at found
      obtain ⟨rfl, isZero⟩ := found
      exact ⟨[], [], rfl, Option.some.inj isZero⟩
  | cons letter text inductionHypothesis =>
      rw [indexOf] at found
      split at found
      · rename_i here
        obtain ⟨after, split⟩ := List.isPrefixOf_iff_prefix.mp here
        exact ⟨[], after, split.symm, Option.some.inj found⟩
      · obtain ⟨later, isLater, rfl⟩ := Option.map_eq_some_iff.mp found
        obtain ⟨before, after, rfl, rfl⟩ := inductionHypothesis isLater
        exact ⟨letter :: before, after, rfl, rfl⟩

theorem indexOf_add_length_le {text : List α} {index : Nat}
    (found : indexOf word text = some index) :
    index + word.length ≤ text.length := by
  obtain ⟨before, after, rfl, rfl⟩ := exists_of_indexOf found
  rw [List.length_append, List.length_append]
  exact Nat.le_add_right _ _

end Search

theorem Missing.of_isInfix {word text part : List α}
    (missing : Missing word text) (within : part <:+: text) :
    Missing word part := by
  obtain ⟨front, back, rfl⟩ := within
  intro before after split
  apply missing (front ++ before) (after ++ back)
  rw [split]
  simp only [List.append_assoc]

/-- Behind a text without the word, it is found past the end of the text. -/
theorem Missing.length_lt [DecidableEq α] {word text more : List α}
    {index : Nat} (missing : Missing word text)
    (found : indexOf word (text ++ more) = some index) :
    text.length < index + word.length := by
  obtain ⟨before, after, split, rfl⟩ := exists_of_indexOf found
  by_contra short
  have starts : before ++ word <+: text := by
    apply List.prefix_of_prefix_length_le ⟨after, split.symm⟩
      (List.prefix_append text more)
    rw [List.length_append]
    exact Nat.le_of_not_lt short
  obtain ⟨rest, rfl⟩ := starts
  exact missing before rest rfl

/-- A word whose first letter does not come back stands behind a text without
it, when this letter follows the text. -/
theorem Missing.behind {letter : α} {tail text rest before after : List α}
    (once : letter ∉ tail) (missing : Missing (letter :: tail) text)
    (split :
      text ++ letter :: rest = before ++ (letter :: tail) ++ after) :
    ∃ between, before = text ++ between ∧
      letter :: rest = between ++ (letter :: tail) ++ after := by
  rw [List.append_assoc] at split
  rcases List.append_eq_append_iff.mp split with
    ⟨between, rfl, found⟩ | ⟨overlap, rfl, found⟩
  · exact ⟨between, rfl, by rw [found, List.append_assoc]⟩
  · rcases List.append_eq_append_iff.mp found with
      ⟨within, rfl, -⟩ | ⟨inside, isWord, isRest⟩
    · exact absurd (List.append_assoc _ _ _).symm (missing before within)
    · cases overlap with
      | nil =>
          refine ⟨[], by simp, ?_⟩
          rw [List.nil_append, isWord, List.nil_append, ← isRest]
      | cons first overlap =>
          obtain ⟨rfl, isTail⟩ := List.cons.inj isWord
          cases inside with
          | nil =>
              obtain rfl : tail = overlap :=
                isTail.trans (List.append_nil overlap)
              exact absurd (List.append_nil _).symm (missing before [])
          | cons second inside =>
              obtain ⟨rfl, -⟩ := List.cons.inj isRest
              exact absurd (isTail ▸ by simp) once

/-! ## Frames -/

/-- The frame begins and ends with the markers and contains neither
elsewhere. -/
structure Delimited (opening closing frame : List α) : Prop where
  opens : opening <+: frame
  closes : closing <:+ frame
  opensOnce : ∀ before after, frame = before ++ opening ++ after → before = []
  closesOnce : ∀ before after, frame = before ++ closing ++ after → after = []

theorem Delimited.of_indexOf [DecidableEq α] {opening closing frame : List α}
    (opens : opening <+: frame) (closes : closing <:+ frame)
    (opensOnce : indexOf opening frame.tail = none)
    (closesOnce : indexOf closing frame.dropLast = none) :
    Delimited opening closing frame where
  opens := opens
  closes := closes
  opensOnce := by
    intro before after split
    cases before with
    | nil => rfl
    | cons first before =>
        have notLater := indexOf_eq_none_iff.mp opensOnce before after
        rw [split] at notLater
        exact absurd rfl notLater
  closesOnce := by
    intro before after split
    rcases List.eq_nil_or_concat' after with rfl | ⟨earlier, last, rfl⟩
    · rfl
    · have notEarlier := indexOf_eq_none_iff.mp closesOnce before earlier
      rw [split, ← List.append_assoc, List.dropLast_concat] at notEarlier
      exact absurd rfl notEarlier

theorem Delimited.iff_indexOf [DecidableEq α] {opening closing : List α}
    (opens : opening ≠ []) (closes : closing ≠ []) (frame : List α) :
    Delimited opening closing frame ↔
      opening <+: frame ∧ closing <:+ frame ∧
        indexOf opening frame.tail = none ∧
          indexOf closing frame.dropLast = none := by
  constructor
  · intro delimited
    refine ⟨delimited.opens, delimited.closes, ?_, ?_⟩
    · rw [indexOf_eq_none_iff]
      rintro before after split
      cases frame with
      | nil => exact opens (List.prefix_nil.mp delimited.opens)
      | cons first frame =>
          rw [List.tail_cons] at split
          have again := delimited.opensOnce (first :: before) after
            (congrArg (first :: ·) split)
          cases again
    · rw [indexOf_eq_none_iff]
      rintro before after split
      rcases List.eq_nil_or_concat' frame with rfl | ⟨frame, last, rfl⟩
      · exact closes (List.suffix_nil.mp delimited.closes)
      · rw [List.dropLast_concat] at split
        have again := delimited.closesOnce before (after ++ [last])
          (by rw [split, List.append_assoc])
        cases (List.append_eq_nil_iff.mp again).2
  · rintro ⟨isOpen, isClosed, opensOnce, closesOnce⟩
    exact .of_indexOf isOpen isClosed opensOnce closesOnce

/-- For every `i`, the pieces without the last `i` hold the frames without
the last `i`: so there is time to take the frames out of the pieces, one frame
at each piece. -/
def KeepsUp (frames pieces : List (List α)) : Prop :=
  ∀ i ≤ frames.length, i ≤ pieces.length ∧
    (frames.rdrop i).flatten <+: (pieces.rdrop i).flatten

theorem keepsUp_nil (pieces : List (List α)) : KeepsUp [] pieces := by
  intro i bound
  obtain rfl := Nat.le_zero.mp bound
  exact ⟨Nat.zero_le _, List.nil_prefix⟩

theorem not_keepsUp_nil (frames : List (List α)) (frame : List α) :
    ¬KeepsUp (frames ++ [frame]) [] := by
  intro keeps
  have one := (keeps 1 (by simp)).1
  exact absurd one (by simp)

theorem keepsUp_concat_iff {frames pieces : List (List α)}
    {frame piece : List α} :
    KeepsUp (frames ++ [frame]) (pieces ++ [piece]) ↔
      (frames ++ [frame]).flatten <+: (pieces ++ [piece]).flatten ∧
        KeepsUp frames pieces := by
  constructor
  · intro keeps
    have whole := (keeps 0 (Nat.zero_le _)).2
    rw [List.rdrop_zero, List.rdrop_zero] at whole
    refine ⟨whole, ?_⟩
    intro i bound
    have next := keeps (i + 1) (by simpa using bound)
    rw [List.rdrop_concat_succ, List.rdrop_concat_succ, List.length_append]
      at next
    exact ⟨Nat.le_of_succ_le_succ next.1, next.2⟩
  · intro keeps i bound
    cases i with
    | zero =>
        rw [List.rdrop_zero, List.rdrop_zero]
        exact ⟨Nat.zero_le _, keeps.1⟩
    | succ i =>
        rw [List.rdrop_concat_succ, List.rdrop_concat_succ,
          List.length_append]
        have last := keeps.2 i (by simpa using bound)
        exact ⟨Nat.succ_le_succ last.1, last.2⟩

/-- When the frames taken out so far are those that the pieces keep up with,
and one more piece adds at most the next frame, this is so again. -/
theorem keepsUp_concat_iff_prefix {frames pieces taken next : List (List α)}
    {piece : List α}
    (paced : ∀ sent, sent <+: frames →
      (KeepsUp sent pieces ↔ sent <+: taken))
    (isNext : next <+: frames) (grows : taken <+: next)
    (byOne : next.length ≤ taken.length + 1)
    (holds : next.flatten <+: (pieces ++ [piece]).flatten)
    (latest : ∀ sent, sent <+: frames → sent.length = taken.length + 1 →
      sent.flatten <+: (pieces ++ [piece]).flatten → sent <+: next) :
    ∀ sent, sent <+: frames →
      (KeepsUp sent (pieces ++ [piece]) ↔ sent <+: next) := by
  intro sent isSent
  rcases List.eq_nil_or_concat' sent with rfl | ⟨earlier, frame, rfl⟩
  · exact iff_of_true (keepsUp_nil _) List.nil_prefix
  · have isEarlier : earlier <+: frames :=
      (List.prefix_append earlier [frame]).trans isSent
    have isTaken : taken <+: frames := grows.trans isNext
    rw [keepsUp_concat_iff, paced earlier isEarlier]
    constructor
    · rintro ⟨arrived, before⟩
      have length : (earlier ++ [frame]).length = earlier.length + 1 :=
        List.length_append
      rcases Nat.lt_or_ge earlier.length taken.length with fewer | all
      · exact (List.prefix_of_prefix_length_le isSent isTaken
          (length ▸ fewer)).trans grows
      · have same := Nat.le_antisymm before.length_le all
        exact latest _ isSent (by rw [length, same]) arrived
    · intro within
      refine ⟨?_, ?_⟩
      · obtain ⟨rest, rfl⟩ := within
        rw [List.flatten_append] at holds
        exact (List.prefix_append _ _).trans holds
      · apply List.prefix_of_prefix_length_le isEarlier isTaken
        have bound := within.length_le
        rw [List.length_append, List.length_singleton] at bound
        omega

/-- The piece ends in the opening marker of a frame, and before it there was
time to take out the frames before that one. -/
def CutsOpening (opening : List α) (frames before : List (List α))
    (piece : List α) : Prop :=
  ∃ taken part, taken <+: frames ∧ KeepsUp taken before ∧
    part <+: opening ∧ part ≠ [] ∧ part ≠ opening ∧
    (before ++ [piece]).flatten = taken.flatten ++ part

end Framing

import LocationServer.Base
import LocationServer.Foundation.Tokens

/-!
# The text helpers as splits and strips

`split` cuts the text with shortened runs, `trim` strips the blanks.
-/

namespace LocationServer

theorem toList_splitLoop (separator : Char) (token : List Char)
    (after : Bool) (text : List Char) (fresh : after = true → token = []) :
    (splitLoop (fun character => character = separator) token after
        text).map String.toList =
      (Tokens.squeezeFrom separator after text).splitOnPPrepend
        (· == separator) token := by
  induction text generalizing token after with
  | nil => simp [splitLoop, Tokens.squeezeFrom]
  | cons character text inductionHypothesis =>
      rw [splitLoop, Tokens.squeezeFrom]
      by_cases cuts : character = separator
      · simp only [cuts, decide_true, if_true]
        cases after with
        | false =>
            simp only [Bool.false_eq_true, if_false, List.map_cons,
              String.toList_ofList]
            rw [inductionHypothesis [] true (fun _ => rfl),
              List.splitOnPPrepend_cons_pos (by simp)]
            rfl
        | true =>
            obtain rfl := fresh rfl
            exact inductionHypothesis [] true (fun _ => rfl)
      · simp only [cuts, decide_false, Bool.false_eq_true, if_false]
        rw [List.splitOnPPrepend_cons_neg (by simpa using cuts)]
        exact inductionHypothesis (character :: token) false (by simp)

/-- `split` is the split of the text with shortened runs. -/
theorem toList_split (separator : Char) (text : String) :
    (split separator text).map String.toList =
      (Tokens.squeeze separator text.toList).splitOn separator :=
  toList_splitLoop separator [] false text.toList (by simp)

theorem toList_trim (text : String) :
    (trim text).toList = Tokens.strip isSpace text.toList := by
  rw [trim, String.toList_ofList, Tokens.strip]

/-- The first item ends at the first separator. -/
theorem head_split (separator : Char) (text : String) :
    ∃ items, split separator text =
      String.ofList (text.toList.takeWhile (· ≠ separator)) :: items := by
  obtain ⟨pieces, cut⟩ :=
    Tokens.head_splitOn (Tokens.squeeze separator text.toList)
  rw [← toList_split, Tokens.takeWhile_squeeze] at cut
  obtain ⟨first, items, isSplit, isFirst, -⟩ := List.map_eq_cons_iff.mp cut
  refine ⟨items, ?_⟩
  rw [isSplit, ← isFirst, String.ofList_toList]

/-- A text without the separator is one item. -/
theorem split_of_free {separator : Char} {text : String}
    (free : Tokens.cutAt separator
      (Tokens.squeeze separator text.toList) = none) :
    ∃ item, split separator text = [item] := by
  have pieces := toList_split separator text
  rw [Tokens.splitOn_eq, free] at pieces
  obtain ⟨item, isSplit, -⟩ := List.map_eq_singleton_iff.mp pieces
  exact ⟨item, isSplit⟩

/-- The first item is the text before the first separator; the others, joined,
are the text after it, with its runs shortened. -/
theorem split_of_cut {separator : Char} {text : String}
    {before after : List Char}
    (cut : Tokens.cutAt separator
      (Tokens.squeeze separator text.toList) = some (before, after)) :
    ∃ item items,
      split separator text = String.ofList before :: item :: items ∧
        ((String.singleton separator).intercalate (item :: items)).toList =
          after := by
  have pieces := toList_split separator text
  rw [Tokens.splitOn_eq, cut] at pieces
  obtain ⟨first, others, isSplit, isFirst, areOthers⟩ :=
    List.map_eq_cons_iff.mp pieces
  cases others with
  | nil => exact absurd areOthers.symm (List.splitOn_ne_nil _ _)
  | cons item items =>
      refine ⟨item, items, ?_, ?_⟩
      · rw [isSplit, ← isFirst, String.ofList_toList]
      · rw [String.toList_intercalate, areOthers, String.toList_singleton,
          List.intercalate_splitOn]

/-! ## Marks in any case -/

theorem toLower_of_mark {mark : Char} (small : mark.toNat < 65) :
    mark.toLower = mark := by
  unfold Char.toLower
  rw [dif_neg]
  rintro ⟨upper, -⟩
  rw [ge_iff_le, UInt32.le_iff_toNat_le] at upper
  exact absurd small (Nat.not_lt.mpr upper)

theorem eq_mark_of_toLower {letter mark : Char} (small : mark.toNat < 65)
    (lower : letter.toLower = mark) : letter = mark := by
  unfold Char.toLower at lower
  split at lower
  · rename_i upper
    have value := congrArg Char.toNat lower
    simp only [Char.toNat] at value
    rw [ge_iff_le, UInt32.le_iff_toNat_le, UInt32.le_iff_toNat_le] at upper
    rw [UInt32.toNat_add] at value
    simp at value upper
    omega
  · exact lower

end LocationServer

import Mathlib.Data.List.Perm.Subperm
import Mathlib.Order.Lattice
import Mathlib.Order.RelClasses

/-!
# The first elements of a sorted list

A list sorted by a strict weak order and cut after a number of elements: what
is kept is sorted, and nothing that was cut comes before anything kept.  The
order is given as the "comes before" test that a sort is called with.
-/

namespace Selection

universe u v

variable {α : Type u}

/-! ## The contract of a sort -/

/-- The test that a stable sort derives from "comes before". -/
def notAfter (before : α → α → Bool) (a b : α) : Bool :=
  !before b a

/-- "Comes before" is a strict weak order. -/
abbrev Sorting (before : α → α → Bool) : Prop :=
  IsStrictWeakOrder α fun a b => before a b = true

section Contract

variable {before : α → α → Bool} [contract : Sorting before]

theorem notAfter_trans (a b c : α) (left : notAfter before a b = true)
    (right : notAfter before b c = true) : notAfter before a c = true := by
  simp only [notAfter, Bool.not_eq_true', Bool.eq_false_iff, ne_eq]
    at left right ⊢
  intro overtaken
  by_cases tied : before a b = true
  · exact right (contract.trans c a b overtaken tied)
  · by_cases tiedNext : before b c = true
    · exact left (contract.trans b c a tiedNext overtaken)
    · exact
        (contract.incomp_trans a b c ⟨tied, left⟩ ⟨tiedNext, right⟩).2
          overtaken

theorem notAfter_total (a b : α) :
    (notAfter before a b || notAfter before b a) = true := by
  cases behind : before b a with
  | false => simp [notAfter, behind]
  | true =>
      have ahead : ¬before a b = true := by
        intro both
        exact contract.irrefl a (contract.trans a b a both behind)
      simp [notAfter, ahead]

end Contract

/-- The comparison of keys in a linear order is a strict weak order. -/
theorem sorting_of_key {κ : Type v} [LinearOrder κ] {before : α → α → Bool}
    (key : α → κ) (compares : ∀ a b, before a b = true ↔ key a < key b) :
    Sorting before where
  irrefl a := by
    rw [compares]
    exact lt_irrefl (key a)
  trans a b c := by
    rw [compares, compares, compares]
    exact lt_trans
  incomp_trans a b c := by
    simp only [compares, not_lt]
    intro left right
    exact ⟨right.1.trans left.1, left.2.trans right.2⟩

/-- A test that never holds leaves every order as it is. -/
theorem sorting_of_never {before : α → α → Bool}
    (never : ∀ a b, ¬before a b = true) : Sorting before where
  irrefl a := never a a
  trans a b _ first := absurd first (never a b)
  incomp_trans a _ c _ _ := ⟨never a c, never c a⟩

/-! ## Cutting a sorted list -/

/-- A list is the best part of another under a "not after" relation. -/
structure BestOf (rel : α → α → Prop) (count : ℕ) (items kept : List α) :
    Prop where
  length : kept.length = min count items.length
  sorted : kept.Pairwise rel
  /-- What is left out, with what is kept, makes up the items. -/
  split :
    ∃ left, (kept ++ left).Perm items ∧
      ∀ a ∈ kept, ∀ b ∈ left, rel a b

theorem BestOf.subperm {rel : α → α → Prop} {count : ℕ}
    {items kept : List α} (best : BestOf rel count items kept) :
    kept.Subperm items := by
  obtain ⟨left, whole, -⟩ := best.split
  exact (List.sublist_append_left kept left).subperm.trans whole.subperm

/-- The cut at a length that the list does not reach changes nothing. -/
theorem cut_eq_take (count : ℕ) (items : List α) :
    (if items.length > count then items.take count else items) =
      items.take count := by
  split
  · rfl
  · exact (List.take_of_length_le (by omega)).symm

/-- The first elements of a sorted permutation are the best ones. -/
theorem bestOf_take {rel : α → α → Prop} {items sorted : List α}
    (same : sorted.Perm items) (ordered : sorted.Pairwise rel)
    (count : ℕ) : BestOf rel count items (sorted.take count) := by
  have halves : (sorted.take count ++ sorted.drop count).Pairwise rel := by
    rwa [List.take_append_drop]
  obtain ⟨first, -, across⟩ := List.pairwise_append.mp halves
  refine ⟨?_, first, sorted.drop count, ?_, across⟩
  · rw [List.length_take, same.length_eq]
  · rw [List.take_append_drop]
    exact same

/-- Sort, then cut. -/
theorem bestOf_mergeSort {before : α → α → Bool} (contract : Sorting before)
    (count : ℕ) (items : List α) :
    BestOf (fun a b => notAfter before a b = true) count items
      ((items.mergeSort (notAfter before)).take count) :=
  bestOf_take (List.mergeSort_perm items (notAfter before))
    (List.pairwise_mergeSort notAfter_trans notAfter_total items) count

end Selection

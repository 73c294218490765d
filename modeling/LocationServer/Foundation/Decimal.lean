import Mathlib.Algebra.Ring.Nat
import Mathlib.Data.List.DropRight
import Mathlib.Data.Rat.Defs
import Mathlib.Tactic.Common

/-!
# Numbers as decimal text

The decimal text of an integer, and reading it back within bounds: an optional
sign and at least one digit.  A rational number is written with a fixed number
of places, rounded to the nearest, ties to even.
-/

namespace Decimal

def write : Int → List Char
  | .ofNat n => Nat.toDigits 10 n
  | .negSucc n => '-' :: Nat.toDigits 10 (n + 1)

def readDigits (digits : List Char) : Option Nat :=
  if digits ≠ [] ∧ digits.all Char.isDigit then
    some (Nat.ofDigitChars 10 digits 0)
  else none

def readSigned : List Char → Option Int
  | '-' :: digits => (readDigits digits).map fun n => -(n : Int)
  | '+' :: digits => (readDigits digits).map fun n => (n : Int)
  | digits => (readDigits digits).map fun n => (n : Int)

/-- The integer that a text denotes, when it is within bounds. -/
def read (low high : Int) (text : List Char) : Option Int :=
  (readSigned text).filter fun n => low ≤ n ∧ n ≤ high

theorem readDigits_toDigits (n : Nat) :
    readDigits (Nat.toDigits 10 n) = some n := by
  have digits : (Nat.toDigits 10 n).all Char.isDigit = true := by
    apply List.all_eq_true.mpr
    intro c member
    exact Nat.isDigit_of_mem_toDigits (by decide) (by decide) member
  rw [readDigits, if_pos ⟨Nat.toDigits_ne_nil, digits⟩,
    Nat.ofDigitChars_ten_toDigits]

/-- A digit is no sign. -/
theorem readSigned_of_isDigit {c : Char} (digit : c.isDigit = true)
    (rest : List Char) :
    readSigned (c :: rest) =
      (readDigits (c :: rest)).map fun n => (n : Int) := by
  have notMinus : c ≠ '-' := by
    rintro rfl
    exact absurd digit (by decide)
  have notPlus : c ≠ '+' := by
    rintro rfl
    exact absurd digit (by decide)
  rw [readSigned]
  · intro digits same
    exact notMinus (List.cons.inj same).1
  · intro digits same
    exact notPlus (List.cons.inj same).1

theorem readSigned_write (n : Int) : readSigned (write n) = some n := by
  cases n with
  | ofNat n =>
      rw [write]
      cases digits : Nat.toDigits 10 n with
      | nil => exact absurd digits Nat.toDigits_ne_nil
      | cons c rest =>
          have member : c ∈ Nat.toDigits 10 n := by
            rw [digits]
            exact List.mem_cons_self
          have digit :=
            Nat.isDigit_of_mem_toDigits (by decide) (by decide) member
          rw [readSigned_of_isDigit digit, ← digits, readDigits_toDigits]
          rfl
  | negSucc n =>
      rw [write, readSigned, readDigits_toDigits]
      rfl

/-- An integer within the bounds is read back. -/
theorem read_write {low high n : Int} (lower : low ≤ n)
    (upper : n ≤ high) : read low high (write n) = some n := by
  rw [read, readSigned_write]
  simp [lower, upper]

theorem mem_write {n : Int} {c : Char} (member : c ∈ write n) :
    c = '-' ∨ c.isDigit = true := by
  cases n with
  | ofNat n =>
      exact
        Or.inr (Nat.isDigit_of_mem_toDigits (by decide) (by decide) member)
  | negSucc n =>
      rw [write] at member
      rcases List.mem_cons.mp member with rfl | member
      · exact Or.inl rfl
      · exact
          Or.inr
            (Nat.isDigit_of_mem_toDigits (by decide) (by decide) member)

/-- Nothing of a decimal text is trimmed. -/
theorem trim_write {blank : Char → Bool} (n : Int)
    (printed : ∀ c, c = '-' ∨ c.isDigit = true → blank c = false) :
    ((write n).dropWhile blank).rdropWhile blank = write n := by
  have noBlank : ∀ c ∈ write n, blank c = false :=
    fun c member => printed c (mem_write member)
  have kept : (write n).dropWhile blank = write n := by
    apply List.dropWhile_eq_self_iff.mpr
    intro nonempty
    rw [noBlank _ (List.getElem_mem nonempty)]
    exact Bool.false_ne_true
  rw [kept]
  apply List.rdropWhile_eq_self_iff.mpr
  intro nonempty
  rw [noBlank _ (List.getLast_mem nonempty)]
  exact Bool.false_ne_true

/-! ## Fixed places -/

/-- The integer nearest to `numerator / denominator`, ties to even. -/
def roundQuotient (numerator denominator : Nat) : Nat :=
  let quotient := numerator / denominator
  let twice := 2 * (numerator % denominator)
  if twice < denominator then quotient
  else if denominator < twice then quotient + 1
  else quotient + quotient % 2

/-- `%.nf` of a rational number. -/
def writeFixed (places : Nat) (value : ℚ) : List Char :=
  let scaled := roundQuotient (value.num.natAbs * 10 ^ places) value.den
  let fraction := Nat.toDigits 10 (scaled % 10 ^ places)
  (if value < 0 then ['-'] else []) ++
    Nat.toDigits 10 (scaled / 10 ^ places) ++
      '.' :: (List.replicate (places - fraction.length) '0' ++ fraction)

example :
    writeFixed 6 (1163455 / 10000) = "116.345500".toList ∧
      writeFixed 6 (-1 / 2000000) = "-0.000000".toList ∧
      writeFixed 2 (199 / 200) = "1.00".toList := by
  decide +kernel

theorem mem_writeFixed {places : Nat} {value : ℚ} {c : Char}
    (member : c ∈ writeFixed places value) :
    c = '-' ∨ c = '.' ∨ c.isDigit = true := by
  have digit {n : Nat} (member : c ∈ Nat.toDigits 10 n) :
      c.isDigit = true :=
    Nat.isDigit_of_mem_toDigits (by decide) (by decide) member
  unfold writeFixed at member
  dsimp only at member
  rcases List.mem_append.mp member with before | after
  · rcases List.mem_append.mp before with sign | whole
    · split at sign
      · exact Or.inl (List.mem_singleton.mp sign)
      · cases sign
    · exact Or.inr (Or.inr (digit whole))
  · rcases List.mem_cons.mp after with rfl | after
    · exact Or.inr (Or.inl rfl)
    · rcases List.mem_append.mp after with zeros | fraction
      · obtain ⟨-, rfl⟩ := List.mem_replicate.mp zeros
        exact Or.inr (Or.inr rfl)
      · exact Or.inr (Or.inr (digit fraction))

end Decimal

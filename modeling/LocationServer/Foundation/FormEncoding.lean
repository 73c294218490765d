import Mathlib.Data.List.Basic

/-!
# Form encoding

The bytes of a form field are spelled as themselves, as `+` for a blank, or as
`%` and two hexadecimal digits.  A byte is a character below 256; which bytes
are escaped is up to the writer, as long as the three marks are.
-/

namespace FormEncoding

def hexDigits : List Char :=
  ['0', '1', '2', '3', '4', '5', '6', '7', '8', '9', 'a', 'b', 'c', 'd',
    'e', 'f']

def upperDigits : List Char := ['A', 'B', 'C', 'D', 'E', 'F']

/-- The digits of both cases and their values. -/
def hexTable : List (Char × Nat) :=
  hexDigits.zipIdx ++ upperDigits.zipIdx 10

def hexValue? (digit : Char) : Option Nat :=
  hexTable.lookup digit

/-- A byte that may stand for itself. -/
def isPlain (letter : Char) : Bool :=
  letter ≠ '%' && letter ≠ '+' && letter ≠ '&'

/-- The first text spells the second one. -/
inductive Spells : List Char → List Char → Prop where
  | nil : Spells [] []
  | plain {raw value : List Char} (letter : Char)
      (isPlain : isPlain letter = true) (rest : Spells raw value) :
      Spells (letter :: raw) (letter :: value)
  | blank {raw value : List Char} (rest : Spells raw value) :
      Spells ('+' :: raw) (' ' :: value)
  | escaped {raw value : List Char} (high low : Char) (left right : Nat)
      (isHigh : hexValue? high = some left)
      (isLow : hexValue? low = some right) (rest : Spells raw value) :
      Spells ('%' :: high :: low :: raw)
        (Char.ofNat (16 * left + right) :: value)

theorem mem_hexTable {digit : Char} {value : Nat}
    (isDigit : hexValue? digit = some value) :
    (digit, value) ∈ hexTable := by
  obtain ⟨older, younger, split, -⟩ := List.lookup_eq_some_iff.mp isDigit
  rw [split]
  exact List.mem_append_right older (List.Mem.head younger)

theorem hexValue?_lt {digit : Char} {value : Nat}
    (isDigit : hexValue? digit = some value) : value < 16 := by
  have bounded : ∀ entry ∈ hexTable, entry.2 < 16 := by decide
  exact bounded _ (mem_hexTable isDigit)

theorem isPlain_of_hexValue? {digit : Char} {value : Nat}
    (isDigit : hexValue? digit = some value) : isPlain digit = true := by
  have plain : ∀ entry ∈ hexTable, isPlain entry.1 = true := by decide
  exact plain _ (mem_hexTable isDigit)

theorem ne_of_isPlain {letter : Char} (plain : isPlain letter = true) :
    letter ≠ '%' ∧ letter ≠ '+' ∧ letter ≠ '&' := by
  simpa [isPlain, and_assoc] using plain

/-- No spelling holds the mark between two fields. -/
theorem Spells.free {raw value : List Char} (spells : Spells raw value) :
    '&' ∉ raw := by
  induction spells with
  | nil => exact List.not_mem_nil
  | plain letter plain rest inductionHypothesis =>
      have notMark := (ne_of_isPlain plain).2.2
      simp [notMark.symm, inductionHypothesis]
  | blank rest inductionHypothesis => simp [inductionHypothesis]
  | escaped high low left right isHigh isLow rest inductionHypothesis =>
      have plainHigh := (ne_of_isPlain (isPlain_of_hexValue? isHigh)).2.2
      have plainLow := (ne_of_isPlain (isPlain_of_hexValue? isLow)).2.2
      simp [plainHigh.symm, plainLow.symm, inductionHypothesis]

/-! ## A decoder -/

/-- A `%` without two digits behind it stands for itself. -/
def decode : List Char → List Char
  | [] => []
  | '%' :: high :: low :: rest =>
      match hexValue? high, hexValue? low with
      | some left, some right =>
          Char.ofNat (16 * left + right) :: decode rest
      | _, _ => '%' :: decode (high :: low :: rest)
  | '+' :: rest => ' ' :: decode rest
  | letter :: rest => letter :: decode rest

theorem decode_of_spells {raw value : List Char}
    (spells : Spells raw value) : decode raw = value := by
  induction spells with
  | nil => rfl
  | plain letter plain rest inductionHypothesis =>
      obtain ⟨notEscape, notBlank, -⟩ := ne_of_isPlain plain
      rw [decode, inductionHypothesis]
      · intro high low rest same
        exact absurd same notEscape
      · exact notBlank
  | blank rest inductionHypothesis => rw [decode, inductionHypothesis]
  | escaped high low left right isHigh isLow rest inductionHypothesis =>
      rw [decode, isHigh, isLow, inductionHypothesis]

/-! ## An encoder -/

def encodeLetter (letter : Char) : List Char :=
  if isPlain letter then [letter]
  else
    ['%', hexDigits.getD (letter.toNat / 16) '0',
      hexDigits.getD (letter.toNat % 16) '0']

def encode (value : List Char) : List Char :=
  value.flatMap encodeLetter

theorem hexValue?_hexDigits {value : Nat} (bound : value < 16) :
    hexValue? (hexDigits.getD value '0') = some value := by
  have all :
      ∀ digit < 16, hexValue? (hexDigits.getD digit '0') = some digit := by
    decide
  exact all value bound

/-- Every text of bytes has a spelling. -/
theorem spells_encode {value : List Char}
    (bytes : ∀ letter ∈ value, letter.toNat < 256) :
    Spells (encode value) value := by
  induction value with
  | nil => exact Spells.nil
  | cons letter value inductionHypothesis =>
      rw [List.forall_mem_cons] at bytes
      have rest := inductionHypothesis bytes.2
      rw [encode, List.flatMap_cons, encodeLetter]
      by_cases plain : isPlain letter = true
      · rw [if_pos plain]
        exact Spells.plain letter plain rest
      · rw [if_neg plain]
        have split : 16 * (letter.toNat / 16) + letter.toNat % 16 =
            letter.toNat := Nat.div_add_mod _ _
        have high : letter.toNat / 16 < 16 :=
          Nat.div_lt_of_lt_mul bytes.1
        have low : letter.toNat % 16 < 16 := Nat.mod_lt _ (by decide)
        have spelled :=
          Spells.escaped _ _ _ _ (hexValue?_hexDigits high)
            (hexValue?_hexDigits low) rest
        rw [split, Char.ofNat_toNat] at spelled
        exact spelled

end FormEncoding

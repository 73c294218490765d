import LocationServer.Foundation.XmlAttributes

/-!
# Identifiers of the interface definition language (`mylex.py`)
-/

namespace LocationServer

open Xml

def isIdentifierStart (c : Char) : Bool :=
  c.isAlpha || c = '_'

def isIdentifierChar (c : Char) : Bool :=
  isIdentifierStart c || c.isDigit

/-- An identifier of the interface definition language (`t_IDENTIFIER`). -/
def isIdentifier : Text → Bool
  | [] => false
  | c :: rest => isIdentifierStart c && rest.all isIdentifierChar

theorem isIdentifierChar_of_mem {name : Text}
    (identifier : isIdentifier name = true) {c : Char} (member : c ∈ name) :
    isIdentifierChar c = true := by
  cases name with
  | nil => cases identifier
  | cons first rest =>
      rw [isIdentifier, Bool.and_eq_true] at identifier
      rcases List.mem_cons.mp member with rfl | member
      · exact Bool.or_eq_true_iff.mpr (Or.inl identifier.1)
      · exact List.all_eq_true.mp identifier.2 c member

theorem toNat_of_isIdentifierChar {c : Char}
    (identifier : isIdentifierChar c = true) :
    (48 ≤ c.toNat ∧ c.toNat ≤ 57) ∨ (65 ≤ c.toNat ∧ c.toNat ≤ 90) ∨
      c.toNat = 95 ∨ (97 ≤ c.toNat ∧ c.toNat ≤ 122) := by
  have letter : c.isAlpha = (c.isUpper || c.isLower) := rfl
  have upper :
      c.isUpper = decide (65 ≤ c.val.toNat ∧ c.val.toNat ≤ 90) := rfl
  have lower :
      c.isLower =
        (decide (97 ≤ c.val.toNat) && decide (c.val.toNat ≤ 122)) := rfl
  simp only [isIdentifierChar, isIdentifierStart, letter, upper, lower,
    Bool.or_eq_true, Bool.and_eq_true, decide_eq_true_eq] at identifier
  rcases identifier with ((upper | lower) | rfl) | digit
  · exact Or.inr (Or.inl upper)
  · exact Or.inr (Or.inr (Or.inr lower))
  · exact Or.inr (Or.inr (Or.inl rfl))
  · exact Or.inl (Char.isDigit_iff_toNat.mp digit)

theorem ne_of_isIdentifierChar {c stop : Char}
    (identifier : isIdentifierChar c = true)
    (stops : isIdentifierChar stop = false) : c ≠ stop := by
  rintro rfl
  rw [identifier] at stops
  cases stops

theorem isPlain_of_isIdentifierChar {c : Char}
    (identifier : isIdentifierChar c = true) : isPlain c = true := by
  have codes := toNat_of_isIdentifierChar identifier
  exact
    isPlain_of_printed (by omega) (by omega)
      (ne_of_isIdentifierChar identifier (by decide))
      (ne_of_isIdentifierChar identifier (by decide))
      (ne_of_isIdentifierChar identifier (by decide))

theorem not_mem_of_isIdentifier {name : Text}
    (identifier : isIdentifier name = true) : '.' ∉ name := by
  intro member
  exact
    absurd (isIdentifierChar_of_mem identifier member) (by decide)

theorem plain_of_isIdentifier {name : Text}
    (identifier : isIdentifier name = true) : Plain name :=
  fun _ member =>
    isPlain_of_isIdentifierChar (isIdentifierChar_of_mem identifier member)

theorem isNameStart_of_isIdentifierStart {c : Char}
    (starts : isIdentifierStart c = true) : isNameStart c = true := by
  rcases Bool.or_eq_true_iff.mp starts with letter | underscore
  · simp [isNameStart, letter]
  · simp [isNameStart, of_decide_eq_true underscore]

theorem isNameChar_of_isIdentifierChar {c : Char}
    (identifier : isIdentifierChar c = true) : isNameChar c = true := by
  rcases Bool.or_eq_true_iff.mp identifier with starts | digit
  · simp [isNameChar, isNameStart_of_isIdentifierStart starts]
  · simp [isNameChar, digit]

theorem isName_of_isIdentifier {name : Text}
    (identifier : isIdentifier name = true) : isName name = true := by
  cases name with
  | nil => cases identifier
  | cons c rest =>
      rw [isIdentifier, Bool.and_eq_true] at identifier
      rw [isName, Bool.and_eq_true]
      refine ⟨isNameStart_of_isIdentifierStart identifier.1, ?_⟩
      apply List.all_eq_true.mpr
      intro other member
      exact
        isNameChar_of_isIdentifierChar
          (List.all_eq_true.mp identifier.2 other member)

/-- A name in an interface definition. -/
structure Identifier where
  text : Text
  valid : isIdentifier text = true
  deriving DecidableEq

end LocationServer

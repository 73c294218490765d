import Mathlib.Data.List.Basic

/-!
# UTF-16

The code units of a text.  A character below the surrogates is its own unit
and no part of another character, so a word of such characters occurs among the
units just where it occurs in the text.
-/

namespace Utf16

def unit (c : Char) : UInt16 :=
  c.toNat.toUInt16

def codeUnits (c : Char) : List UInt16 :=
  if c.toNat < 0x10000 then [unit c]
  else
    [(0xD800 + (c.toNat - 0x10000) / 0x400).toUInt16,
      (0xDC00 + (c.toNat - 0x10000) % 0x400).toUInt16]

def encode (text : List Char) : List UInt16 :=
  text.flatMap codeUnits

@[simp]
theorem encode_cons (c : Char) (text : List Char) :
    encode (c :: text) = codeUnits c ++ encode text :=
  rfl

@[simp]
theorem encode_append (text rest : List Char) :
    encode (text ++ rest) = encode text ++ encode rest :=
  List.flatMap_append

theorem encode_flatten (texts : List (List Char)) :
    encode texts.flatten = (texts.map encode).flatten := by
  rw [encode, List.flatten_eq_flatMap, List.flatMap_assoc]
  rfl

/-- One unit, or two surrogates. -/
theorem codeUnits_cases (c : Char) :
    (c.toNat < 0x10000 ∧ codeUnits c = [unit c]) ∨
      ∃ high low : UInt16, codeUnits c = [high, low] ∧
        (0xD800 ≤ high.toNat ∧ high.toNat ≤ 0xDFFF) ∧
        (0xD800 ≤ low.toNat ∧ low.toNat ≤ 0xDFFF) := by
  by_cases small : c.toNat < 0x10000
  · exact Or.inl ⟨small, if_pos small⟩
  · have bound : c.toNat < 0x110000 := by
      rcases c.valid with below | ⟨_, above⟩
      · exact Nat.lt_trans below (by decide)
      · exact above
    have size : UInt16.size = 0x10000 := rfl
    refine Or.inr ⟨_, _, if_neg small, ?_, ?_⟩
    · rw [Nat.toUInt16, UInt16.toNat_ofNat_of_lt' (by omega)]
      omega
    · rw [Nat.toUInt16, UInt16.toNat_ofNat_of_lt' (by omega)]
      omega

theorem codeUnits_ne_nil (c : Char) : codeUnits c ≠ [] := by
  rcases codeUnits_cases c with ⟨_, units⟩ | ⟨_, _, units, _⟩ <;>
    rw [units] <;> exact List.cons_ne_nil _ _

theorem codeUnits_length_le (c : Char) :
    (codeUnits c).length ≤ c.utf8Size := by
  rw [codeUnits]
  split
  · exact c.utf8Size_pos
  · rename_i large
    have four : c.utf8Size = 4 := by
      rw [Char.utf8Size_eq_four_iff, UInt32.lt_iff_toNat_lt]
      exact Nat.le_of_not_lt large
    rw [four]
    exact Nat.le_add_right 2 2

/-- A character of one unit. -/
def Single (c : Char) : Prop :=
  c.toNat < 0x10000

instance (c : Char) : Decidable (Single c) :=
  inferInstanceAs (Decidable (c.toNat < 0x10000))

theorem toNat_unit {c : Char} (single : Single c) :
    (unit c).toNat = c.toNat :=
  UInt16.toNat_ofNat_of_lt' single

theorem codeUnits_of_single {c : Char} (single : Single c) :
    codeUnits c = [unit c] :=
  if_pos single

theorem eq_of_unit_mem {c d : Char} (single : Single d)
    (member : unit d ∈ codeUnits c) : c = d := by
  have value := toNat_unit single
  have notSurrogate : d.toNat < 0xD800 ∨ 0xDFFF < d.toNat :=
    d.valid.imp id And.left
  rcases codeUnits_cases c with
    ⟨small, units⟩ | ⟨high, low, units, highRange, lowRange⟩
  · rw [units, List.mem_singleton] at member
    have same := congrArg UInt16.toNat member
    rw [value, toNat_unit small] at same
    exact Char.toNat_inj.mp same.symm
  · rw [units, List.mem_pair] at member
    rcases member with same | same <;>
      · have number := congrArg UInt16.toNat same
        rw [value] at number
        omega

theorem count_encode {d : Char} (single : Single d) (text : List Char) :
    (encode text).count (unit d) = text.count d := by
  induction text with
  | nil => rfl
  | cons c text inductionHypothesis =>
      rw [encode_cons, List.count_append, inductionHypothesis,
        List.count_cons, Nat.add_comm]
      congr 1
      by_cases same : c = d
      · subst same
        simp [codeUnits_of_single single]
      · rw [List.count_eq_zero.mpr (mt (eq_of_unit_mem single) same)]
        simp [same]

/-! ## Decoding -/

/-- The text of code units, with a question mark for a surrogate that is not
part of a pair. -/
def decode : List UInt16 → List Char
  | [] => []
  | [unit] =>
      [if unit.toNat < 0xD800 ∨ 0xDFFF < unit.toNat then
        Char.ofNat unit.toNat else '?']
  | unit :: next :: rest =>
      if unit.toNat < 0xD800 ∨ 0xDFFF < unit.toNat then
        Char.ofNat unit.toNat :: decode (next :: rest)
      else if unit.toNat < 0xDC00 ∧ 0xDC00 ≤ next.toNat ∧
          next.toNat ≤ 0xDFFF then
        Char.ofNat
            (0x10000 + (unit.toNat - 0xD800) * 0x400 +
              (next.toNat - 0xDC00)) ::
          decode rest
      else '?' :: decode (next :: rest)

theorem decode_cons_of_single {unit : UInt16} (rest : List UInt16)
    (single : unit.toNat < 0xD800 ∨ 0xDFFF < unit.toNat) :
    decode (unit :: rest) = Char.ofNat unit.toNat :: decode rest := by
  cases rest with
  | nil => exact congrArg (fun c => [c]) (if_pos single)
  | cons next rest => rw [decode, if_pos single]

theorem decode_codeUnits_append (c : Char) (rest : List UInt16) :
    decode (codeUnits c ++ rest) = c :: decode rest := by
  rw [codeUnits]
  split
  · rename_i small
    have value : (unit c).toNat = c.toNat :=
      UInt16.toNat_ofNat_of_lt' small
    have single : (unit c).toNat < 0xD800 ∨ 0xDFFF < (unit c).toNat := by
      rw [value]
      exact c.valid.imp id And.left
    rw [List.singleton_append, decode_cons_of_single rest single, value,
      Char.ofNat_toNat]
  · rename_i large
    have bound : c.toNat < 0x110000 := by
      rcases c.valid with below | ⟨_, above⟩
      · exact Nat.lt_trans below (by decide)
      · exact above
    have size : UInt16.size = 0x10000 := rfl
    have high :
        (0xD800 + (c.toNat - 0x10000) / 0x400).toUInt16.toNat =
          0xD800 + (c.toNat - 0x10000) / 0x400 :=
      UInt16.toNat_ofNat_of_lt' (by omega)
    have low :
        (0xDC00 + (c.toNat - 0x10000) % 0x400).toUInt16.toNat =
          0xDC00 + (c.toNat - 0x10000) % 0x400 :=
      UInt16.toNat_ofNat_of_lt' (by omega)
    have whole :
        0x10000 + (0xD800 + (c.toNat - 0x10000) / 0x400 - 0xD800) * 0x400 +
            (0xDC00 + (c.toNat - 0x10000) % 0x400 - 0xDC00) =
          c.toNat := by
      omega
    rw [List.cons_append, List.singleton_append, decode, high, low,
      if_neg (by omega), if_pos (by omega), whole, Char.ofNat_toNat]

@[simp]
theorem decode_encode (text : List Char) : decode (encode text) = text := by
  induction text with
  | nil => rfl
  | cons c text inductionHypothesis =>
      rw [encode_cons, decode_codeUnits_append, inductionHypothesis]

/-! ## Occurrences -/

theorem eq_append_of_encode {word : List Char}
    (singles : ∀ d ∈ word, Single d) :
    ∀ {text : List Char} {after : List UInt16},
      encode text = encode word ++ after →
      ∃ rest, text = word ++ rest ∧ after = encode rest := by
  induction word with
  | nil =>
      intro text after units
      exact ⟨text, rfl, units.symm⟩
  | cons d word inductionHypothesis =>
      intro text after units
      obtain ⟨single, others⟩ := List.forall_mem_cons.mp singles
      rw [encode_cons, codeUnits_of_single single] at units
      cases text with
      | nil => cases units
      | cons c text =>
          rw [encode_cons] at units
          have same : c = d := by
            apply eq_of_unit_mem single
            obtain ⟨first, more, split⟩ :=
              List.exists_cons_of_ne_nil (codeUnits_ne_nil c)
            rw [split] at units ⊢
            rw [(List.cons.inj units).1]
            exact List.mem_cons_self
          subst same
          rw [codeUnits_of_single single] at units
          obtain ⟨rest, rfl, ended⟩ :=
            inductionHypothesis others (List.append_cancel_left units)
          exact ⟨rest, rfl, ended⟩

/-- A word that occurs among the units occurs in the text. -/
theorem exists_of_encode {word : List Char} (nonempty : word ≠ [])
    (singles : ∀ d ∈ word, Single d) {text : List Char} :
    ∀ {before after : List UInt16},
      encode text = before ++ encode word ++ after →
      ∃ front back, text = front ++ word ++ back ∧
        before = encode front ∧ after = encode back := by
  obtain ⟨d, word, rfl⟩ := List.exists_cons_of_ne_nil nonempty
  have single : Single d := singles d List.mem_cons_self
  have starts : encode (d :: word) = unit d :: encode word := by
    rw [encode_cons, codeUnits_of_single single]
    rfl
  induction text with
  | nil =>
      intro before after units
      rw [starts] at units
      exact absurd (congrArg (unit d ∈ ·) units) (by simp [encode])
  | cons c text inductionHypothesis =>
      intro before after units
      have word_units := units
      rw [encode_cons, List.append_assoc] at units
      rcases List.append_eq_append_iff.mp units with
        ⟨between, rfl, rest⟩ | ⟨tail, split, rest⟩
      · rw [← List.append_assoc] at rest
        obtain ⟨front, back, rfl, rfl, rfl⟩ := inductionHypothesis rest
        exact ⟨c :: front, back, rfl, rfl, rfl⟩
      · cases tail with
        | nil =>
            obtain ⟨front, back, rfl, begun, ended⟩ :=
              @inductionHypothesis [] after rest.symm
            rw [List.append_nil] at split
            refine ⟨c :: front, back, rfl, ?_, ended⟩
            rw [encode_cons, ← begun, List.append_nil, split]
        | cons first tail =>
            rw [starts] at rest
            obtain ⟨rfl, _⟩ := List.cons.inj rest
            have member : unit d ∈ codeUnits c :=
              split ▸ List.mem_append_right before List.mem_cons_self
            obtain rfl := eq_of_unit_mem single member
            rw [codeUnits_of_single single] at split
            obtain ⟨rfl, _⟩ | ⟨_, empty⟩ :=
              List.append_eq_singleton_iff.mp split.symm
            · obtain ⟨back, whole, ended⟩ :=
                eq_append_of_encode singles word_units
              exact ⟨[], back, whole, rfl, ended⟩
            · cases empty

end Utf16

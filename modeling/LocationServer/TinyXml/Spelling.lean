import LocationServer.Text
import LocationServer.TinyXml.Parsing

/-!
# What the parser reads

The texts that spell a tree of elements, attributes and character data, with
any white space that the parser passes over, either kind of quote and every
kind of reference.  Each of them is read back as the tree that it spells.  A
document without a declaration and a byte order mark is read byte by byte.
-/

namespace LocationServer

/-! ## Bytes -/

/-- A byte as itself or as a reference. -/
inductive SpellsByte : List Char → Char → Prop where
  | plain (c : Char) (notReference : c ≠ '&') : SpellsByte [c] c
  | entity (name : List Char) (c : Char)
      (listed : (name, c) ∈ entityTable) : SpellsByte ('&' :: name) c
  | decimal (number : Nat) (isByte : number < 256) :
      SpellsByte ('&' :: '#' :: (Nat.toDigits 10 number ++ [';']))
        (Char.ofNat number)
  | hexadecimal (number : Nat) (isByte : number < 256) :
      SpellsByte ('&' :: '#' :: 'x' :: (Nat.toDigits 16 number ++ [';']))
        (Char.ofNat number)

theorem getEntity_listed (encoding : TiXmlEncoding) {name : List Char}
    {c : Char} (listed : (name, c) ∈ entityTable) (after : List Char) :
    getEntity encoding (name ++ after) = some ([c], after) := by
  simp only [entityTable, List.mem_cons, List.not_mem_nil, or_false,
    Prod.mk.injEq] at listed
  obtain ⟨rfl, rfl⟩ | ⟨rfl, rfl⟩ | ⟨rfl, rfl⟩ | ⟨rfl, rfl⟩ | ⟨rfl, rfl⟩ :=
    listed <;> rfl

/-- The digits of a byte are read back, and hold neither mark. -/
theorem decimal_digits {number : Nat} (isByte : number < 256) :
    entityNumber 10 decimalDigit (Nat.toDigits 10 number).reverse 1 =
        some number ∧
      (∀ q ∈ Nat.toDigits 10 number, q ≠ ';' ∧ q ≠ '#' ∧ q ≠ 'x') ∧
      Nat.toDigits 10 number ≠ [] := by
  have each :
      ∀ number < 256,
        entityNumber 10 decimalDigit (Nat.toDigits 10 number).reverse 1 =
            some number ∧
          (Nat.toDigits 10 number).all
              (fun q => q ≠ ';' ∧ q ≠ '#' ∧ q ≠ 'x') = true ∧
          Nat.toDigits 10 number ≠ [] := by
    decide +kernel
  obtain ⟨isNumber, free, nonempty⟩ := each number isByte
  refine ⟨isNumber, fun q member => ?_, nonempty⟩
  exact of_decide_eq_true (List.all_eq_true.mp free q member)

theorem hexadecimal_digits {number : Nat} (isByte : number < 256) :
    entityNumber 16 hexadecimalDigit (Nat.toDigits 16 number).reverse 1 =
        some number ∧
      ∀ q ∈ Nat.toDigits 16 number, q ≠ ';' ∧ q ≠ 'x' := by
  have each :
      ∀ number < 256,
        entityNumber 16 hexadecimalDigit (Nat.toDigits 16 number).reverse 1 =
            some number ∧
          (Nat.toDigits 16 number).all (fun q => q ≠ ';' ∧ q ≠ 'x') =
            true := by
    decide +kernel
  obtain ⟨isNumber, free⟩ := each number isByte
  refine ⟨isNumber, fun q member => ?_⟩
  exact of_decide_eq_true (List.all_eq_true.mp free q member)

theorem numericEntity_spelled {encoding : TiXmlEncoding} {base : Nat}
    {digit : Char → Option Nat} {mark : Char} {digits : List Char}
    {number : Nat} (notUtf8 : encoding ≠ .utf8) (isByte : number < 256)
    (isNumber : entityNumber base digit digits.reverse 1 = some number)
    (free : ∀ q ∈ digits, q ≠ ';' ∧ q ≠ mark) (after : List Char) :
    numericEntity encoding base digit mark (digits ++ ';' :: after) =
      some ([Char.ofNat number], after) := by
  have inside : ∀ q ∈ digits, decide (q ≠ ';') = true :=
    fun q member => decide_eq_true (free q member).1
  have unmarked :
      digits.reverse.takeWhile (· ≠ mark) = digits.reverse := by
    apply List.takeWhile_eq_self_iff.mpr
    intro q member
    exact decide_eq_true (free q (List.mem_reverse.mp member)).2
  have taken : (digits ++ ';' :: after).takeWhile (· ≠ ';') = digits := by
    rw [List.takeWhile_append_of_pos inside, List.takeWhile_cons]
    exact List.append_nil _
  have dropped :
      (digits ++ ';' :: after).dropWhile (· ≠ ';') = ';' :: after := by
    rw [List.dropWhile_append_of_pos inside, List.dropWhile_cons]
    rfl
  rw [numericEntity, taken, dropped]
  dsimp only
  rw [unmarked, isNumber]
  dsimp only
  have isWord : number < 2 ^ 64 := by omega
  rw [if_neg notUtf8, Nat.mod_eq_of_lt isWord, Nat.mod_eq_of_lt isByte]

theorem getEntity_decimal {encoding : TiXmlEncoding} {number : Nat}
    (notUtf8 : encoding ≠ .utf8) (isByte : number < 256)
    (after : List Char) :
    getEntity encoding
        ('#' :: (Nat.toDigits 10 number ++ ';' :: after)) =
      some ([Char.ofNat number], after) := by
  obtain ⟨isNumber, free, nonempty⟩ := decimal_digits isByte
  have read :=
    numericEntity_spelled notUtf8 isByte isNumber
      (fun q member => ⟨(free q member).1, (free q member).2.1⟩) after
  cases digits : Nat.toDigits 10 number with
  | nil => exact absurd digits nonempty
  | cons q rest =>
      rw [digits] at read
      have notHex : q ≠ 'x' := (free q (by simp [digits])).2.2
      rw [List.cons_append] at read ⊢
      rw [getEntity, read]
      exact notHex

theorem getEntity_hexadecimal {encoding : TiXmlEncoding} {number : Nat}
    (notUtf8 : encoding ≠ .utf8) (isByte : number < 256)
    (after : List Char) :
    getEntity encoding
        ('#' :: 'x' :: (Nat.toDigits 16 number ++ ';' :: after)) =
      some ([Char.ofNat number], after) := by
  obtain ⟨isNumber, free⟩ := hexadecimal_digits isByte
  rw [getEntity]
  exact numericEntity_spelled notUtf8 isByte isNumber free after

/-- A reference or a byte is read as the byte, behind its first byte. -/
theorem getChar_spelled {encoding : TiXmlEncoding}
    (notUtf8 : encoding ≠ .utf8) {first c : Char} {raw : List Char}
    (spells : SpellsByte (first :: raw) c) (after : List Char) :
    getChar encoding first (raw ++ after) = .ok ([c], some after) := by
  rw [getChar, if_neg notUtf8, if_pos rfl]
  cases spells with
  | plain _ notReference => rw [if_neg notReference, List.nil_append]
  | entity _ _ listed =>
      rw [if_pos rfl, getEntity_listed encoding listed]
  | decimal number isByte =>
      rw [if_pos rfl, List.cons_append, List.append_assoc,
        List.singleton_append, getEntity_decimal notUtf8 isByte]
  | hexadecimal number isByte =>
      rw [if_pos rfl, List.cons_append, List.cons_append, List.append_assoc,
        List.singleton_append, getEntity_hexadecimal notUtf8 isByte]

theorem SpellsByte.nonempty {raw : List Char} {c : Char}
    (spells : SpellsByte raw c) : ∃ first rest, raw = first :: rest := by
  cases spells with
  | plain _ _ => exact ⟨_, _, rfl⟩
  | entity _ _ _ => exact ⟨_, _, rfl⟩
  | decimal _ _ => exact ⟨_, _, rfl⟩
  | hexadecimal _ _ => exact ⟨_, _, rfl⟩

/-! ## Values and texts -/

/-- The value of an attribute between two quotes. -/
inductive SpellsValue (quote : Char) : List Char → List Char → Prop where
  | nil : SpellsValue quote [] []
  | cons {piece raw value : List Char} {c : Char}
      (byte : SpellsByte piece c) (free : quote ∉ piece)
      (rest : SpellsValue quote raw value) :
      SpellsValue quote (piece ++ raw) (c :: value)

/-- Character data: each run of white space stands for one blank, and the last
one for nothing.  The first argument tells that white space stands before. -/
inductive SpellsText : Bool → List Char → List Char → Prop where
  | nil (whitespace : Bool) : SpellsText whitespace [] []
  | white {whitespace : Bool} {raw value : List Char} (c : Char)
      (isWhite : isWhiteSpace c = true) (rest : SpellsText true raw value) :
      SpellsText whitespace (c :: raw) value
  | byte {whitespace : Bool} {piece raw value : List Char} {c first : Char}
      (byte : SpellsByte (first :: piece) c)
      (data : isWhiteSpace first = false ∧ first ≠ '<')
      (rest : SpellsText false raw value) :
      SpellsText whitespace (first :: piece ++ raw)
        (if whitespace then ' ' :: c :: value else c :: value)

theorem beginsWith_singleton (c q : Char) (p : List Char) :
    beginsWith (c :: p) [q] false = true ↔ c = q := by
  rw [beginsWith_iff_starts, List.cons_prefix_cons, eq_comm]
  exact and_iff_left List.nil_prefix

theorem readKept_spelled {encoding : TiXmlEncoding} {quote : Char}
    {raw value : List Char} (notUtf8 : encoding ≠ .utf8)
    (spells : SpellsValue quote raw value) (after : List Char) :
    ∀ fuel, raw.length < fuel →
      readKept encoding [quote] fuel (raw ++ quote :: after) =
        .ok (value, some (quote :: after)) := by
  induction spells with
  | nil =>
      intro fuel enough
      obtain ⟨fuel, rfl⟩ := Nat.exists_eq_succ_of_ne_zero
        (Nat.ne_of_gt enough)
      rw [List.nil_append, readKept,
        if_pos ((beginsWith_singleton quote quote after).mpr rfl)]
  | cons byte free rest inductionHypothesis =>
      intro fuel enough
      obtain ⟨first, piece, rfl⟩ := byte.nonempty
      rw [List.cons_append, List.length_cons, List.length_append] at enough
      obtain ⟨fuel, rfl⟩ := Nat.exists_eq_succ_of_ne_zero
        (Nat.ne_of_gt (Nat.zero_lt_of_lt enough))
      have notQuote : first ≠ quote := by
        rintro rfl
        exact free List.mem_cons_self
      have onward := inductionHypothesis fuel (by omega)
      rw [List.append_assoc, List.cons_append, readKept,
        if_neg (mt (beginsWith_singleton _ _ _).mp notQuote),
        getChar_spelled notUtf8 byte]
      dsimp only [bind, Except.bind]
      rw [onward]
      rfl

theorem readCondensed_spelled {encoding : TiXmlEncoding}
    {whitespace : Bool} {raw value : List Char}
    (notUtf8 : encoding ≠ .utf8)
    (spells : SpellsText whitespace raw value) (after : List Char) :
    ∀ fuel, raw.length < fuel →
      readCondensed encoding ['<'] fuel whitespace (raw ++ '<' :: after) =
        .ok (value, some ('<' :: after)) := by
  induction spells with
  | nil whitespace =>
      intro fuel enough
      obtain ⟨fuel, rfl⟩ := Nat.exists_eq_succ_of_ne_zero
        (Nat.ne_of_gt enough)
      rw [List.nil_append, readCondensed,
        if_pos ((beginsWith_singleton '<' '<' after).mpr rfl)]
  | white c isWhite rest inductionHypothesis =>
      intro fuel enough
      obtain ⟨fuel, rfl⟩ := Nat.exists_eq_succ_of_ne_zero
        (Nat.ne_of_gt (Nat.zero_lt_of_lt enough))
      have notTag : c ≠ '<' := by
        rintro rfl
        exact absurd isWhite (by decide)
      rw [List.length_cons] at enough
      rw [List.cons_append, readCondensed,
        if_neg (mt (beginsWith_singleton _ _ _).mp notTag), if_pos isWhite]
      exact inductionHypothesis fuel (by omega)
  | @byte whitespace piece raw value c first byte data rest
      inductionHypothesis =>
      intro fuel enough
      obtain ⟨notWhite, notTag⟩ := data
      rw [List.cons_append, List.length_cons, List.length_append] at enough
      obtain ⟨fuel, rfl⟩ := Nat.exists_eq_succ_of_ne_zero
        (Nat.ne_of_gt (Nat.zero_lt_of_lt enough))
      have onward := inductionHypothesis fuel (by omega)
      rw [List.append_assoc, List.cons_append, readCondensed,
        if_neg (mt (beginsWith_singleton _ _ _).mp notTag),
        if_neg (Bool.eq_false_iff.mp notWhite),
        getChar_spelled notUtf8 byte]
      dsimp only [bind, Except.bind]
      rw [onward]
      cases whitespace <;> rfl

/-! ## White space -/

def IsWhite (blanks : List Char) : Prop :=
  ∀ c ∈ blanks, isWhiteSpace c = true

instance : DecidablePred IsWhite :=
  fun blanks => List.decidableBAll (fun c => isWhiteSpace c = true) blanks

theorem skipWhiteSpace_blanks {encoding : TiXmlEncoding}
    {blanks : List Char} {c : Char} (notUtf8 : encoding ≠ .utf8)
    (isWhite : IsWhite blanks) (notWhite : isWhiteSpace c = false)
    (p : List Char) :
    skipWhiteSpace encoding (blanks ++ c :: p) = some (c :: p) := by
  have nonempty : blanks ++ c :: p ≠ [] := by simp
  rw [skipWhiteSpace, if_neg nonempty, skipLoop_eq_dropWhile notUtf8,
    List.dropWhile_append_of_pos isWhite,
    List.dropWhile_cons_of_neg (Bool.eq_false_iff.mp notWhite)]

theorem skipWhiteSpace_here {encoding : TiXmlEncoding} {c : Char}
    (notUtf8 : encoding ≠ .utf8) (notWhite : isWhiteSpace c = false)
    (p : List Char) :
    skipWhiteSpace encoding (c :: p) = some (c :: p) :=
  @skipWhiteSpace_blanks encoding [] c notUtf8 (by simp [IsWhite]) notWhite p

theorem readText_value {encoding : TiXmlEncoding} {quote c : Char}
    {raw value : List Char} (notUtf8 : encoding ≠ .utf8)
    (spells : SpellsValue quote raw value) (after : List Char) :
    readText encoding false [quote] (raw ++ quote :: c :: after) =
      .ok (value, some (c :: after)) := by
  have enough : raw.length < (raw ++ quote :: c :: after).length := by
    simp
  have read := readKept_spelled notUtf8 spells (c :: after) _ enough
  rw [readText, readUpTo, if_neg Bool.false_ne_true, read]
  rfl

theorem readText_data {encoding : TiXmlEncoding} {first c : Char}
    {raw value : List Char} (notUtf8 : encoding ≠ .utf8)
    (spells : SpellsText false (first :: raw) value)
    (notWhite : isWhiteSpace first = false) (after : List Char) :
    readText encoding true ['<'] (first :: raw ++ '<' :: c :: after) =
      .ok (value, some (c :: after)) := by
  have enough :
      (first :: raw).length < (first :: raw ++ '<' :: c :: after).length := by
    simp
  have read := readCondensed_spelled notUtf8 spells (c :: after) _ enough
  have skipped :
      skipWhiteSpace encoding (first :: raw ++ '<' :: c :: after) =
        some (first :: raw ++ '<' :: c :: after) :=
    skipWhiteSpace_here notUtf8 notWhite _
  rw [readText, readUpTo, if_pos rfl, skipped]
  dsimp only
  rw [read]
  rfl

/-! ## Names and attributes -/

structure IsName (name : List Char) : Prop where
  begins : ∃ first rest, name = first :: rest ∧
    (isAlpha first || first = '_') = true
  bytes : ∀ c ∈ name, isNameByte c = true

theorem readName_spelled {name : List Char} {c : Char}
    (isName : IsName name) (ends : isNameByte c = false)
    (after : List Char) :
    readName (name ++ c :: after) = some (name, c :: after) := by
  obtain ⟨first, rest, rfl, begins⟩ := isName.begins
  have taken :
      (first :: rest ++ c :: after).takeWhile isNameByte =
        first :: rest := by
    rw [List.takeWhile_append_of_pos isName.bytes,
      List.takeWhile_cons_of_neg (Bool.eq_false_iff.mp ends),
      List.append_nil]
  have dropped :
      (first :: rest ++ c :: after).dropWhile isNameByte = c :: after := by
    rw [List.dropWhile_append_of_pos isName.bytes,
      List.dropWhile_cons_of_neg (Bool.eq_false_iff.mp ends)]
  rw [List.cons_append] at taken dropped ⊢
  rw [readName, if_pos begins, taken, dropped]

/-- A name begins with none of the bytes that the parser looks for. -/
theorem name_first {first : Char}
    (begins : (isAlpha first || first = '_') = true) :
    isWhiteSpace first = false ∧ first ≠ '/' ∧ first ≠ '>' ∧
      first ≠ '?' ∧ first ≠ '!' := by
  refine ⟨?_, ?_, ?_, ?_, ?_⟩
  · by_contra white
    rw [Bool.not_eq_false] at white
    simp only [isWhiteSpace, Bool.or_eq_true, decide_eq_true_eq] at white
    obtain ((((rfl | rfl) | rfl) | rfl) | rfl) | rfl := white <;>
      exact absurd begins (by decide)
  all_goals
    rintro rfl
    exact absurd begins (by decide)

/-- An attribute with either quote. -/
inductive SpellsAttribute : List Char → List Char × List Char → Prop where
  | mk {before behind name raw value : List Char} {quote : Char}
      (isName : IsName name) (around : IsWhite before ∧ IsWhite behind)
      (isQuote : quote = '\'' ∨ quote = '"')
      (spells : SpellsValue quote raw value) :
      SpellsAttribute
        (name ++ (before ++ '=' :: (behind ++ quote :: (raw ++ [quote]))))
        (name, value)

theorem white_not_name {c : Char} (white : isWhiteSpace c = true) :
    isNameByte c = false := by
  simp only [isWhiteSpace, Bool.or_eq_true, decide_eq_true_eq] at white
  obtain ((((rfl | rfl) | rfl) | rfl) | rfl) | rfl := white <;> decide

theorem readAttributeValue_spelled {encoding : TiXmlEncoding}
    {quote c : Char} {raw value : List Char} (notUtf8 : encoding ≠ .utf8)
    (isQuote : quote = '\'' ∨ quote = '"')
    (spells : SpellsValue quote raw value) (after : List Char) :
    readAttributeValue encoding quote (raw ++ quote :: c :: after) =
      .ok (value, some (c :: after)) := by
  have read := readText_value (c := c) notUtf8 spells after
  obtain rfl | rfl := isQuote
  · exact read
  · exact read

/-- Behind a name stands white space or the `=`. -/
theorem readName_before {before name : List Char} (isName : IsName name)
    (isWhite : IsWhite before) {c : Char} (ends : isNameByte c = false)
    (after : List Char) :
    readName (name ++ (before ++ c :: after)) =
      some (name, before ++ c :: after) := by
  cases before with
  | nil => exact readName_spelled isName ends after
  | cons blank before =>
      exact readName_spelled isName
        (white_not_name (isWhite blank List.mem_cons_self)) _

theorem parseAttribute_spelled {encoding : TiXmlEncoding}
    {raw : List Char} {pair : List Char × List Char}
    (notUtf8 : encoding ≠ .utf8) (spells : SpellsAttribute raw pair)
    (c : Char) (after : List Char) :
    parseAttribute encoding (raw ++ c :: after) =
      .ok (pair, some (c :: after)) := by
  obtain ⟨isName, around, isQuote, spells⟩ := spells
  rename_i before behind name raw value quote
  obtain ⟨first, rest, rfl, begins⟩ := isName.begins
  have quoteNotWhite : isWhiteSpace quote = false := by
    obtain rfl | rfl := isQuote <;> decide
  have whole :
      first :: rest ++
          (before ++ '=' :: (behind ++ quote :: (raw ++ [quote]))) ++
        c :: after =
        first :: (rest ++
          (before ++ '=' ::
            (behind ++ quote :: (raw ++ quote :: c :: after)))) := by
    simp
  have named :=
    readName_before (c := '=') isName around.1 (by decide)
      (behind ++ quote :: (raw ++ quote :: c :: after))
  rw [List.cons_append] at named
  rw [whole, parseAttribute,
    skipWhiteSpace_here notUtf8 (name_first begins).1]
  dsimp only
  rw [named]
  dsimp only
  rw [skipWhiteSpace_blanks notUtf8 around.1 (by decide)]
  split
  · rename_i q same
    cases same
    rw [skipWhiteSpace_blanks notUtf8 around.2 quoteNotWhite]
    dsimp only
    rw [readAttributeValue_spelled notUtf8 isQuote spells]
    rfl
  · rename_i other
    exact absurd rfl (other _)

inductive SpellsAttributes :
    List Char → List (List Char × List Char) → Prop where
  | nil : SpellsAttributes [] []
  | cons {blanks piece raw : List Char} {pair : List Char × List Char}
      {pairs : List (List Char × List Char)}
      (separated : IsWhite blanks ∧ blanks ≠ [])
      (first : SpellsAttribute piece pair)
      (rest : SpellsAttributes raw pairs) :
      SpellsAttributes (blanks ++ (piece ++ raw)) (pair :: pairs)

/-- The end of a start tag. -/
def tagEnd (isEmpty : Bool) : List Char :=
  if isEmpty then ['/', '>'] else ['>']

theorem readAttributes_end {encoding : TiXmlEncoding} {blanks : List Char}
    (notUtf8 : encoding ≠ .utf8) (isWhite : IsWhite blanks)
    (isEmpty : Bool) (fuel : Nat)
    (attributes : List (List Char × List Char)) (after : List Char) :
    readAttributes encoding (fuel + 1) attributes
        (blanks ++ (tagEnd isEmpty ++ after)) =
      .ok (attributes, isEmpty, after) := by
  cases isEmpty with
  | true =>
      have skipped :
          skipWhiteSpace encoding (blanks ++ (tagEnd true ++ after)) =
            some ('/' :: '>' :: after) :=
        skipWhiteSpace_blanks notUtf8 isWhite (by decide) _
      rw [readAttributes, skipped]
      rfl
  | false =>
      have skipped :
          skipWhiteSpace encoding (blanks ++ (tagEnd false ++ after)) =
            some ('>' :: after) :=
        skipWhiteSpace_blanks notUtf8 isWhite (by decide) _
      rw [readAttributes, skipped]
      rfl

/-- Behind a name stands white space or the end of the tag. -/
theorem SpellsAttributes.behind_name {raw blanks : List Char}
    {pairs : List (List Char × List Char)}
    (spells : SpellsAttributes raw pairs) (isWhite : IsWhite blanks)
    (isEmpty : Bool) (after : List Char) :
    ∃ c rest, raw ++ (blanks ++ (tagEnd isEmpty ++ after)) = c :: rest ∧
      isNameByte c = false := by
  cases spells with
  | nil =>
      cases blanks with
      | nil => cases isEmpty <;> exact ⟨_, _, rfl, by decide⟩
      | cons blank blanks =>
          exact ⟨blank, _, rfl,
            white_not_name (isWhite blank List.mem_cons_self)⟩
  | @cons separator piece raw pair pairs separated first rest =>
      obtain ⟨areWhite, nonempty⟩ := separated
      cases separator with
      | nil => exact absurd rfl nonempty
      | cons blank separator =>
          exact ⟨blank, _, rfl,
            white_not_name (areWhite blank List.mem_cons_self)⟩

theorem readAttributes_spelled {encoding : TiXmlEncoding}
    {raw blanks : List Char} {pairs : List (List Char × List Char)}
    (notUtf8 : encoding ≠ .utf8) (spells : SpellsAttributes raw pairs)
    (isWhite : IsWhite blanks) (isEmpty : Bool) (after : List Char) :
    ∀ (fuel : Nat) (attributes : List (List Char × List Char)),
      raw.length < fuel →
        ((attributes ++ pairs).map Prod.fst).Nodup →
          readAttributes encoding fuel attributes
              (raw ++ (blanks ++ (tagEnd isEmpty ++ after))) =
            .ok (attributes ++ pairs, isEmpty, after) := by
  induction spells with
  | nil =>
      intro fuel attributes enough distinct
      obtain ⟨fuel, rfl⟩ := Nat.exists_eq_succ_of_ne_zero
        (Nat.ne_of_gt enough)
      rw [List.append_nil, List.nil_append]
      exact readAttributes_end notUtf8 isWhite isEmpty fuel attributes after
  | @cons separator piece raw pair pairs separated first rest
      inductionHypothesis =>
      intro fuel attributes enough distinct
      rw [List.length_append, List.length_append] at enough
      have someBlank := List.length_pos_of_ne_nil separated.2
      obtain ⟨fuel, rfl⟩ := Nat.exists_eq_succ_of_ne_zero
        (Nat.ne_of_gt (Nat.zero_lt_of_lt enough))
      obtain ⟨c, behind, isBehind, -⟩ :=
        rest.behind_name isWhite isEmpty after
      have onward :=
        inductionHypothesis fuel (attributes ++ [pair]) (by omega)
          (by rw [List.append_assoc]; exact distinct)
      rw [isBehind, List.append_assoc, List.singleton_append] at onward
      have read := parseAttribute_spelled notUtf8 first c behind
      have isFirst : ∃ letter letters, piece = letter :: letters ∧
          (isAlpha letter || letter = '_') = true := by
        obtain ⟨isName, -, -, -⟩ := first
        obtain ⟨letter, letters, rfl, begins⟩ := isName.begins
        exact ⟨letter, _, rfl, begins⟩
      obtain ⟨letter, letters, rfl, begins⟩ := isFirst
      obtain ⟨notWhite, notSlash, notEnd, -, -⟩ := name_first begins
      have notThere :
          (attributes.any fun other => other.1 = pair.1) = false := by
        rw [List.map_append, List.nodup_append] at distinct
        rw [Bool.eq_false_iff]
        intro found
        obtain ⟨other, member, same⟩ := List.any_eq_true.mp found
        exact distinct.2.2 other.1 (List.mem_map_of_mem member) pair.1
          (by simp) (of_decide_eq_true same)
      rw [List.append_assoc, List.append_assoc, isBehind,
        List.cons_append, readAttributes,
        skipWhiteSpace_blanks notUtf8 separated.1 notWhite]
      rw [List.cons_append] at read
      split
      · rename_i impossible
        cases impossible
      · rename_i impossible
        cases impossible
      · rename_i same
        cases same
        exact absurd rfl notSlash
      · rename_i same
        cases same
        exact absurd rfl notEnd
      · rename_i same
        cases same
        rw [read]
        dsimp only [bind, Except.bind]
        rw [notThere, if_neg Bool.false_ne_true, onward]

/-! ## Elements -/

/-- A start tag between its `<` and its end. -/
inductive SpellsTag :
    List Char → List Char → List (List Char × List Char) → Prop where
  | mk {name raw blanks : List Char}
      {pairs : List (List Char × List Char)} (isName : IsName name)
      (attributes : SpellsAttributes raw pairs)
      (distinct : (pairs.map Prod.fst).Nodup) (isWhite : IsWhite blanks) :
      SpellsTag (name ++ (raw ++ blanks)) name pairs

/-- The content of an element: elements and character data that is not blank,
with white space between them. -/
inductive SpellsContent : List Char → List TiXmlNode → Prop where
  | nil {blanks : List Char} (isWhite : IsWhite blanks) :
      SpellsContent blanks []
  | text {blanks raw tail value : List Char} {first : Char}
      {nodes : List TiXmlNode} (isWhite : IsWhite blanks)
      (spells : SpellsText false (first :: raw) value)
      (notWhite : isWhiteSpace first = false)
      (isData : blank value = false)
      (follows : tail = [] ∨ ∃ q, tail = '<' :: q)
      (rest : SpellsContent tail nodes) :
      SpellsContent (blanks ++ (first :: raw ++ tail))
        (.text (String.ofList value) :: nodes)
  | empty {blanks tag tail name : List Char}
      {pairs : List (List Char × List Char)} {nodes : List TiXmlNode}
      (isWhite : IsWhite blanks) (start : SpellsTag tag name pairs)
      (rest : SpellsContent tail nodes) :
      SpellsContent (blanks ++ '<' :: (tag ++ (tagEnd true ++ tail)))
        (.element (String.ofList name) (attributeStrings pairs) [] ::
          nodes)
  | element {blanks tag inner closing tail name : List Char}
      {pairs : List (List Char × List Char)}
      {children nodes : List TiXmlNode} (isWhite : IsWhite blanks)
      (start : SpellsTag tag name pairs)
      (content : SpellsContent inner children)
      (isClosing : IsWhite closing) (rest : SpellsContent tail nodes) :
      SpellsContent
        (blanks ++ '<' ::
          (tag ++ (tagEnd false ++
            (inner ++ '<' :: '/' :: (name ++ (closing ++ '>' :: tail))))))
        (.element (String.ofList name) (attributeStrings pairs) children ::
          nodes)

/-- The steps of `TiXmlElement::Parse` through a start tag. -/
theorem SpellsTag.steps {encoding : TiXmlEncoding} {tag name : List Char}
    {pairs : List (List Char × List Char)} (notUtf8 : encoding ≠ .utf8)
    (start : SpellsTag tag name pairs) (isEmpty : Bool)
    (after : List Char) :
    ∃ first rest c q,
      tag ++ (tagEnd isEmpty ++ after) = first :: rest ∧
        (isAlpha first || first = '_') = true ∧
        readName (first :: rest) = some (name, c :: q) ∧
        readAttributes encoding (c :: q).length [] (c :: q) =
          .ok (pairs, isEmpty, after) := by
  obtain ⟨isName, attributes, distinct, isWhite⟩ := start
  rename_i raw blanks
  obtain ⟨c, q, behind, notName⟩ :=
    attributes.behind_name isWhite isEmpty after
  have named := readName_spelled isName notName q
  obtain ⟨first, rest, rfl, begins⟩ := isName.begins
  have enough : raw.length < (c :: q).length := by
    have ends : 0 < (tagEnd isEmpty).length := by
      cases isEmpty <;> decide
    rw [← behind]
    simp only [List.length_append]
    omega
  have read :=
    readAttributes_spelled notUtf8 attributes isWhite isEmpty after
      (c :: q).length [] enough distinct
  rw [behind] at read
  refine ⟨first, rest ++ c :: q, c, q, ?_, begins, named, read⟩
  rw [List.append_assoc, List.append_assoc, behind]
  rfl

theorem parseElement_empty {encoding : TiXmlEncoding}
    {tag name : List Char} {pairs : List (List Char × List Char)}
    (notUtf8 : encoding ≠ .utf8) (start : SpellsTag tag name pairs)
    (after : List Char) (fuel : Nat) :
    parseElement encoding (fuel + 1)
        ('<' :: (tag ++ (tagEnd true ++ after))) =
      .ok
        (.element (String.ofList name) (attributeStrings pairs) [],
          some after) := by
  obtain ⟨first, rest, c, q, whole, begins, named, read⟩ :=
    start.steps notUtf8 true after
  rw [parseElement, List.drop_one, List.tail_cons, whole,
    skipWhiteSpace_here notUtf8 (name_first begins).1]
  dsimp only
  rw [named]
  dsimp only
  rw [read]
  rfl

theorem parseElement_content {encoding : TiXmlEncoding}
    {tag name closing after behind : List Char}
    {pairs : List (List Char × List Char)} {children : List TiXmlNode}
    {fuel : Nat} (notUtf8 : encoding ≠ .utf8)
    (start : SpellsTag tag name pairs) (isClosing : IsWhite closing)
    (content :
      readValue encoding fuel behind =
        .ok (children, some ('<' :: '/' :: (name ++ (closing ++ '>' ::
          after))))) :
    parseElement encoding (fuel + 1)
        ('<' :: (tag ++ (tagEnd false ++ behind))) =
      .ok
        (.element (String.ofList name) (attributeStrings pairs) children,
          some after) := by
  obtain ⟨first, rest, c, q, whole, begins, named, read⟩ :=
    start.steps notUtf8 false behind
  have atTag :
      beginsWith ('<' :: '/' :: (name ++ (closing ++ '>' :: after)))
        ("</".toList ++ name) false = true :=
    beginsWith_iff_starts.mpr ⟨closing ++ '>' :: after, by simp⟩
  have dropped :
      ('<' :: '/' :: (name ++ (closing ++ '>' :: after))).drop
        (2 + name.length) = closing ++ '>' :: after := by
    rw [Nat.add_comm, List.drop_succ_cons, List.drop_succ_cons,
      List.drop_left]
  rw [parseElement, List.drop_one, List.tail_cons, whole,
    skipWhiteSpace_here notUtf8 (name_first begins).1]
  dsimp only
  rw [named]
  dsimp only
  rw [read]
  dsimp only [bind, Except.bind]
  rw [if_neg Bool.false_ne_true, content]
  dsimp only
  rw [if_pos atTag, dropped,
    skipWhiteSpace_blanks notUtf8 isClosing (by decide)]
  rfl

theorem identify_name {first : Char} {rest : List Char}
    (begins : (isAlpha first || first = '_') = true) :
    identify ('<' :: first :: rest) = some .element := by
  obtain ⟨-, -, -, notQuestion, notBang⟩ := name_first begins
  have notHeader :
      beginsWith ('<' :: first :: rest) "<?xml".toList true = false := by
    rw [beginsWith, if_pos rfl, Bool.eq_false_iff]
    intro isHeader
    rw [List.isPrefixOf_iff_prefix, List.map_cons, List.map_cons] at isHeader
    have second := (List.cons_prefix_cons.mp isHeader).2
    have lower := (List.cons_prefix_cons.mp second).1
    exact notQuestion (eq_mark_of_toLower (by decide) lower.symm)
  have notMarked : ∀ tag : List Char,
      beginsWith ('<' :: first :: rest) ('<' :: '!' :: tag) false =
        false := by
    intro tag
    rw [Bool.eq_false_iff]
    intro marked
    have second :=
      (List.cons_prefix_cons.mp (beginsWith_iff_starts.mp marked)).2
    exact notBang (List.cons_prefix_cons.mp second).1.symm
  have notComment :
      beginsWith ('<' :: first :: rest) "<!--".toList false = false :=
    notMarked "--".toList
  have notCdata :
      beginsWith ('<' :: first :: rest) "<![CDATA[".toList false = false :=
    notMarked "[CDATA[".toList
  have notUnknown :
      beginsWith ('<' :: first :: rest) "<!".toList false = false :=
    notMarked []
  rw [identify, notHeader, notComment, notCdata, notUnknown]
  exact if_pos begins

/-- What an element of a content does to the loop. -/
theorem readValue_element {encoding : TiXmlEncoding}
    {blanks tag name after behind next : List Char} {isEmpty : Bool}
    {pairs : List (List Char × List Char)} {node : TiXmlNode}
    {nodes : List TiXmlNode} {fuel : Nat} (notUtf8 : encoding ≠ .utf8)
    (isWhite : IsWhite blanks) (start : SpellsTag tag name pairs)
    (element :
      parseElement encoding fuel
          ('<' :: (tag ++ (tagEnd isEmpty ++ behind))) =
        .ok (node, some after))
    (further :
      readValue encoding (fuel + 1) after = .ok (nodes, some next)) :
    readValue encoding (fuel + 2)
        (blanks ++ '<' :: (tag ++ (tagEnd isEmpty ++ behind))) =
      .ok (node :: nodes, some next) := by
  obtain ⟨first, rest, c, q, whole, begins, -, -⟩ :=
    @SpellsTag.steps encoding _ _ _ notUtf8 start isEmpty behind
  rw [whole] at element ⊢
  have notEndTag :
      beginsWith ('<' :: first :: rest) "</".toList false = false := by
    rw [Bool.eq_false_iff]
    intro isEnd
    have second :=
      (List.cons_prefix_cons.mp (beginsWith_iff_starts.mp isEnd)).2
    exact (name_first begins).2.1 (List.cons_prefix_cons.mp second).1.symm
  rw [readValue, skipWhiteSpace_blanks notUtf8 isWhite (by decide)]
  dsimp only
  rw [if_neg (by simp), notEndTag, if_neg Bool.false_ne_true,
    identify_name begins]
  dsimp only
  rw [parseNode, element]
  dsimp only [bind, Except.bind]
  rw [further]

theorem SpellsText.first_ne {first : Char} {raw value : List Char}
    (spells : SpellsText false (first :: raw) value)
    (notWhite : isWhiteSpace first = false) : first ≠ '<' := by
  cases spells with
  | white c isWhite rest =>
      rw [notWhite] at isWhite
      cases isWhite
  | byte byte data rest => exact data.2

/-- What character data of a content does to the loop. -/
theorem readValue_text {encoding : TiXmlEncoding}
    {blanks raw value after next : List Char} {first c : Char}
    {nodes : List TiXmlNode} {fuel : Nat} (notUtf8 : encoding ≠ .utf8)
    (isWhite : IsWhite blanks)
    (spells : SpellsText false (first :: raw) value)
    (notWhite : isWhiteSpace first = false) (isData : blank value = false)
    (further :
      readValue encoding fuel ('<' :: c :: after) =
        .ok (nodes, some next)) :
    readValue encoding (fuel + 1)
        (blanks ++ first :: (raw ++ '<' :: c :: after)) =
      .ok (.text (String.ofList value) :: nodes, some next) := by
  have read := @readText_data encoding first c raw value notUtf8 spells
    notWhite after
  rw [List.cons_append] at read
  rw [readValue, skipWhiteSpace_blanks notUtf8 isWhite notWhite]
  dsimp only
  rw [if_pos (spells.first_ne notWhite), read]
  dsimp only [bind, Except.bind]
  rw [further, isData]
  rfl

/-- The content of an element is read as the nodes that it spells, up to the
end tag. -/
theorem readValue_spelled {encoding : TiXmlEncoding} {raw : List Char}
    {nodes : List TiXmlNode} (notUtf8 : encoding ≠ .utf8)
    (spells : SpellsContent raw nodes) :
    ∀ (fuel : Nat) (after : List Char), raw.length + 3 ≤ fuel →
      readValue encoding fuel (raw ++ '<' :: '/' :: after) =
        .ok (nodes, some ('<' :: '/' :: after)) := by
  induction spells with
  | nil isWhite =>
      intro fuel after enough
      obtain ⟨fuel, rfl⟩ := Nat.exists_eq_succ_of_ne_zero
        (Nat.ne_of_gt (Nat.lt_of_lt_of_le (Nat.succ_pos _) enough))
      rw [readValue, skipWhiteSpace_blanks notUtf8 isWhite (by decide)]
      rfl
  | @text blanks raw tail value first nodes isWhite spells notWhite isData
      follows rest inductionHypothesis =>
      intro fuel after enough
      obtain ⟨fuel, rfl⟩ := Nat.exists_eq_succ_of_ne_zero
        (Nat.ne_of_gt (Nat.lt_of_lt_of_le (Nat.succ_pos _) enough))
      simp only [List.length_append, List.length_cons] at enough
      have further := inductionHypothesis fuel after (by omega)
      obtain ⟨c, more, begins⟩ :
          ∃ c more, tail ++ '<' :: '/' :: after = '<' :: c :: more := by
        obtain rfl | ⟨q, rfl⟩ := follows
        · exact ⟨'/', after, rfl⟩
        · obtain ⟨c, more, split⟩ :=
            List.exists_cons_of_ne_nil
              (List.append_ne_nil_of_right_ne_nil q
                (List.cons_ne_nil '<' ('/' :: after)))
          exact ⟨c, more, by rw [List.cons_append, split]⟩
      rw [begins] at further
      have read :=
        readValue_text notUtf8 isWhite spells notWhite isData further
      rw [List.append_assoc, List.append_assoc, begins]
      exact read
  | @empty blanks tag tail name pairs nodes isWhite start rest
      inductionHypothesis =>
      intro fuel after enough
      obtain ⟨more, rfl⟩ : ∃ more, fuel = more + 3 :=
        ⟨fuel - 3, by omega⟩
      simp only [List.length_append, List.length_cons] at enough
      simp only [List.append_assoc, List.cons_append]
      exact readValue_element notUtf8 isWhite start
        (parseElement_empty notUtf8 start _ more)
        (inductionHypothesis (more + 2) after (by
          simp only [tagEnd, if_true, List.length_cons] at enough
          omega))
  | @element blanks tag inner closing tail name pairs children nodes isWhite
      start content isClosing rest contentRead restRead =>
      intro fuel after enough
      obtain ⟨more, rfl⟩ : ∃ more, fuel = more + 3 :=
        ⟨fuel - 3, by omega⟩
      simp only [List.length_append, List.length_cons] at enough
      simp only [List.append_assoc, List.cons_append]
      exact readValue_element notUtf8 isWhite start
        (parseElement_content notUtf8 start isClosing
          (contentRead more _ (by omega)))
        (restRead (more + 2) after (by omega))

/-! ## Documents -/

theorem beginsWith_mark {blanks rest : List Char}
    (isWhite : IsWhite blanks) :
    beginsWith (blanks ++ '<' :: rest) ['\xef', '\xbb', '\xbf'] false =
      false := by
  rw [Bool.eq_false_iff]
  intro begins
  have mark := beginsWith_iff_starts.mp begins
  cases blanks with
  | nil => exact absurd (List.cons_prefix_cons.mp mark).1 (by decide)
  | cons blank blanks =>
      have white := isWhite blank List.mem_cons_self
      rw [← (List.cons_prefix_cons.mp mark).1] at white
      exact absurd white (by decide)

theorem skipWhiteSpace_white {encoding : TiXmlEncoding}
    {blanks : List Char} (notUtf8 : encoding ≠ .utf8)
    (isWhite : IsWhite blanks) :
    skipWhiteSpace encoding blanks = none ∨
      skipWhiteSpace encoding blanks = some [] := by
  rw [skipWhiteSpace, skipLoop_eq_dropWhile notUtf8,
    List.dropWhile_eq_nil_iff.mpr isWhite]
  split
  · exact Or.inl rfl
  · exact Or.inr rfl

/-- The document of an element with white space around it. -/
theorem parseDocument_element {blanks tag name behind after : List Char}
    {isEmpty : Bool} {pairs : List (List Char × List Char)}
    {node : TiXmlNode} (isWhite : IsWhite blanks)
    (start : SpellsTag tag name pairs) (ends : IsWhite after)
    (element : ∀ fuel, behind.length < fuel →
      parseElement .unknown fuel
          ('<' :: (tag ++ (tagEnd isEmpty ++ behind))) =
        .ok (node, some after)) :
    parseDocument (blanks ++ '<' :: (tag ++ (tagEnd isEmpty ++ behind))) =
      .ok [node] := by
  have notUtf8 : TiXmlEncoding.unknown ≠ .utf8 := by decide
  obtain ⟨first, rest, c, q, whole, begins, -, -⟩ :=
    start.steps notUtf8 isEmpty behind
  have notMark := @beginsWith_mark blanks
    (tag ++ (tagEnd isEmpty ++ behind)) isWhite
  have skipped :=
    @skipWhiteSpace_blanks .unknown blanks '<' notUtf8 isWhite (by decide)
      (tag ++ (tagEnd isEmpty ++ behind))
  have long :
      behind.length <
        (blanks ++ '<' :: (tag ++ (tagEnd isEmpty ++ behind))).length := by
    simp only [List.length_append, List.length_cons]
    omega
  generalize blanks ++ '<' :: (tag ++ (tagEnd isEmpty ++ behind)) = p
    at notMark skipped long ⊢
  obtain ⟨count, isCount⟩ :=
    Nat.exists_eq_succ_of_ne_zero (Nat.ne_of_gt (Nat.zero_lt_of_lt long))
  have read := element (p.length + 1) (by omega)
  rw [whole] at read skipped
  have looped :
      documentLoop (p.length + 2) p.length .unknown
          ('<' :: first :: rest) = .ok [node] := by
    rw [isCount, documentLoop, identify_name begins, ← isCount]
    dsimp only
    rw [parseNode, read]
    dsimp only [bind, Except.bind, Option.bind]
    rw [if_neg (by decide)]
    obtain none | empty := skipWhiteSpace_white notUtf8 ends
    · rw [none]
    · rw [empty]
      cases count <;> rfl
  rw [parseDocument, notMark, if_neg Bool.false_ne_true, skipped]
  dsimp only
  rw [looped]
  rfl

/-- Every spelling of an element is a document of it. -/
theorem parseDocument_spelled {raw : List Char} {value : String}
    {attributes : List (String × String)} {children : List TiXmlNode}
    (spells : SpellsContent raw [.element value attributes children]) :
    parseDocument raw = .ok [.element value attributes children] := by
  have notUtf8 : TiXmlEncoding.unknown ≠ .utf8 := by decide
  cases spells with
  | empty isWhite start rest =>
      cases rest with
      | nil ends =>
          apply parseDocument_element isWhite start ends
          intro fuel enough
          obtain ⟨fuel, rfl⟩ := Nat.exists_eq_succ_of_ne_zero
            (Nat.ne_of_gt (Nat.zero_lt_of_lt enough))
          exact parseElement_empty notUtf8 start _ fuel
  | element isWhite start content isClosing rest =>
      cases rest with
      | nil ends =>
          apply parseDocument_element isWhite start ends
          intro fuel enough
          obtain ⟨fuel, rfl⟩ := Nat.exists_eq_succ_of_ne_zero
            (Nat.ne_of_gt (Nat.zero_lt_of_lt enough))
          simp only [List.length_append, List.length_cons] at enough
          exact parseElement_content notUtf8 start isClosing
            (readValue_spelled notUtf8 content fuel _ (by omega))

end LocationServer

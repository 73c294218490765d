import LocationServer.Foundation.Decimal
import LocationServer.Foundation.XmlContent
import Mathlib.Tactic.Common

/-!
# Attributes written without escapes

A start tag with attributes in double quotes is read back exactly when its
values are plain: then the parser finds the attributes that were written.  A
value that is not plain is read back as another text, or the tag is refused,
whatever follows.
-/

namespace Xml

/-! ## Names and plain values -/

def isName : Text → Bool
  | [] => false
  | c :: rest => isNameStart c && rest.all isNameChar

/-- The character stands for itself in an attribute value in double quotes. -/
def isPlain (c : Char) : Bool :=
  isChar c && c ≠ '"' && c ≠ '<' && c ≠ '&' && attributeChar c = c

/-- Every character stands for itself. -/
def Plain (value : Text) : Prop :=
  ∀ c ∈ value, isPlain c = true

instance (value : Text) : Decidable (Plain value) :=
  List.decidableBAll (fun c => isPlain c = true) value

/-- The printed characters of ASCII are plain but for three. -/
theorem isPlain_of_printed {c : Char} (low : 0x20 ≤ c.toNat)
    (high : c.toNat ≤ 0x7E) (notQuote : c ≠ '"') (notMarkup : c ≠ '<')
    (noReference : c ≠ '&') : isPlain c = true := by
  have valid : isChar c = true := by
    have below : c.toNat ≤ 0xD7FF := by omega
    simp [isChar, low, below]
  have kept : attributeChar c = c := by
    rw [attributeChar]
    split
    · rename_i space
      simp only [isSpace, Bool.or_eq_true, decide_eq_true_eq] at space
      rcases space with ((rfl | rfl) | rfl) | rfl
      · rfl
      · exact absurd low (by decide)
      · exact absurd low (by decide)
      · exact absurd low (by decide)
    · rfl
  simp [isPlain, valid, kept, notQuote, notMarkup, noReference]

theorem isPlain_of_isDigit {c : Char} (digit : c.isDigit = true) :
    isPlain c = true := by
  have codes := Char.isDigit_iff_toNat.mp digit
  have different {other : Char} (notDigit : other.isDigit = false) :
      c ≠ other := by
    rintro rfl
    rw [digit] at notDigit
    cases notDigit
  exact
    isPlain_of_printed (Nat.le_trans (by decide) codes.1)
      (Nat.le_trans codes.2 (by decide)) (different (by decide))
      (different (by decide)) (different (by decide))

theorem plain_write (n : Int) : Plain (Decimal.write n) := by
  intro c member
  rcases Decimal.mem_write member with rfl | digit
  · decide
  · exact isPlain_of_isDigit digit

theorem plain_writeFixed (places : Nat) (value : ℚ) :
    Plain (Decimal.writeFixed places value) := by
  intro c member
  rcases Decimal.mem_writeFixed member with rfl | rfl | digit
  · decide
  · decide
  · exact isPlain_of_isDigit digit

/-- Attributes as a start tag has them, in double quotes. -/
def renderAttributes (attributes : List (Text × Text)) : Text :=
  attributes.flatMap fun (name, value) =>
    ' ' :: name ++ '=' :: '"' :: value ++ ['"']

theorem name_of_isName {found : Text} (valid : isName found = true)
    {stop : Char} (stops : isNameChar stop = false) (after : Text) :
    name (found ++ stop :: after) = some (found, stop :: after) := by
  cases found with
  | nil => cases valid
  | cons c rest =>
      rw [isName, Bool.and_eq_true] at valid
      have further : ∀ c ∈ rest, isNameChar c = true :=
        List.all_eq_true.mp valid.2
      rw [List.cons_append, name, if_pos valid.1,
        List.takeWhile_append_of_pos further,
        List.dropWhile_append_of_pos further,
        List.takeWhile_cons_of_neg (by simp [stops]),
        List.dropWhile_cons_of_neg (by simp [stops]), List.append_nil]

/-! ## Decoding a value -/

theorem decode_cons {normalise : Char → Char} {c : Char}
    (noReference : c ≠ '&') (noMarkup : c ≠ '<') (noReturn : c ≠ '\r')
    (rest : Text) :
    decode normalise none (c :: rest) =
      if isChar c then (decode normalise none rest).map (normalise c :: ·)
      else none := by
  rw [decode]
  all_goals simp [noReference, noMarkup, noReturn]

/-- A reference is longer than the character that it stands for. -/
theorem length_le_of_decode {normalise : Char → Char}
    {open? : Option Text} {raw value : Text}
    (decoded : decode normalise open? raw = some value) :
    value.length ≤ raw.length := by
  fun_induction decode normalise open? raw generalizing value with
  | case1 =>
      cases decoded
      exact Nat.le_refl 0
  | case2 =>
      cases decoded
  | case3 name rest inductionHypothesis =>
      obtain ⟨c, -, read⟩ := Option.bind_eq_some_iff.mp decoded
      obtain ⟨later, isLater, rfl⟩ := Option.map_eq_some_iff.mp read
      exact Nat.succ_le_succ (inductionHypothesis isLater)
  | case4 name c rest _ inductionHypothesis =>
      exact Nat.le_succ_of_le (inductionHypothesis decoded)
  | case5 rest inductionHypothesis =>
      exact Nat.le_succ_of_le (inductionHypothesis decoded)
  | case6 rest =>
      cases decoded
  | case7 rest inductionHypothesis =>
      obtain ⟨later, isLater, rfl⟩ := Option.map_eq_some_iff.mp decoded
      exact
        Nat.succ_le_succ (Nat.le_succ_of_le (inductionHypothesis isLater))
  | case8 rest _ inductionHypothesis =>
      obtain ⟨later, isLater, rfl⟩ := Option.map_eq_some_iff.mp decoded
      exact Nat.succ_le_succ (inductionHypothesis isLater)
  | case9 c rest _ _ _ _ valid inductionHypothesis =>
      obtain ⟨later, isLater, rfl⟩ := Option.map_eq_some_iff.mp decoded
      exact Nat.succ_le_succ (inductionHypothesis isLater)
  | case10 =>
      cases decoded

/-- A line end becomes a blank. -/
theorem decode_return (rest : Text) :
    ∃ later,
      decode attributeChar none ('\r' :: rest) =
        Option.map (' ' :: ·) later := by
  by_cases isPair : ∃ others, rest = '\n' :: others
  · obtain ⟨others, rfl⟩ := isPair
    refine ⟨decode attributeChar none others, ?_⟩
    rw [decode]
    rfl
  · refine ⟨decode attributeChar none rest, ?_⟩
    rw [decode]
    · rfl
    · intro others isOthers
      exact isPair ⟨others, isOthers⟩

theorem decode_return_ne (rest : Text) :
    decode attributeChar none ('\r' :: rest) ≠ some ('\r' :: rest) := by
  obtain ⟨later, isLater⟩ := decode_return rest
  rw [isLater]
  cases later with
  | none => simp
  | some value => simp

/-- A value without a double quote stands for itself exactly when it is
plain. -/
theorem attributeValue_eq_self_iff {value : Text}
    (unquoted : '"' ∉ value) :
    attributeValue value = some value ↔ Plain value := by
  rw [attributeValue]
  induction value with
  | nil => exact iff_of_true rfl (by simp [Plain])
  | cons c rest inductionHypothesis =>
      have inductionHypothesis :=
        inductionHypothesis fun member =>
          unquoted (List.mem_cons_of_mem c member)
      have notQuote : c ≠ '"' := fun isQuote => unquoted (by simp [isQuote])
      have plainCons :
          Plain (c :: rest) ↔ isPlain c = true ∧ Plain rest := by
        simp [Plain]
      rw [plainCons]
      by_cases isReference : c = '&'
      · refine iff_of_false ?_ fun plain => ?_
        · intro decoded
          rw [isReference, decode] at decoded
          have bound := length_le_of_decode decoded
          rw [List.length_cons] at bound
          omega
        · rw [isReference] at plain
          exact absurd plain.1 (by decide)
      · by_cases isMarkup : c = '<'
        · refine iff_of_false ?_ fun plain => ?_
          · rw [isMarkup, decode]
            simp
          · rw [isMarkup] at plain
            exact absurd plain.1 (by decide)
        · by_cases isReturn : c = '\r'
          · refine iff_of_false ?_ fun plain => ?_
            · rw [isReturn]
              exact decode_return_ne rest
            · rw [isReturn] at plain
              exact absurd plain.1 (by decide)
          · rw [decode_cons isReference isMarkup isReturn]
            have isPlainHere :
                isPlain c = true ↔
                  isChar c = true ∧ attributeChar c = c := by
              simp [isPlain, notQuote, isMarkup, isReference]
            rw [isPlainHere, ← inductionHypothesis]
            by_cases valid : isChar c = true
            · rw [if_pos valid]
              simp [valid, and_comm]
            · rw [if_neg valid]
              simp [valid]

/-! ## Reading attributes -/

theorem upTo_quote_of_not_mem {value : Text} {quote : Char}
    (unquoted : quote ∉ value) (after : Text) :
    upTo [quote] (value ++ quote :: after) = some (value, after) := by
  induction value with
  | nil => simp [upTo]
  | cons c rest inductionHypothesis =>
      have different : c ≠ quote := fun same => unquoted (by simp [same])
      have later :=
        inductionHypothesis fun member =>
          unquoted (List.mem_cons_of_mem c member)
      rw [List.cons_append, upTo, later]
      simp [Ne.symm different]

/-- The quote that ends a value is the first. -/
theorem upTo_quote_length_lt {value after raw rest : Text} {quote : Char}
    (quoted : quote ∈ value)
    (found : upTo [quote] (value ++ after) = some (raw, rest)) :
    raw.length < value.length := by
  induction value generalizing raw with
  | nil => cases quoted
  | cons c value inductionHypothesis =>
      rw [List.cons_append, upTo] at found
      split at found
      · obtain ⟨rfl, -⟩ := Prod.mk.inj (Option.some.inj found)
        exact Nat.succ_pos _
      · rename_i notHere
        obtain ⟨⟨later, _⟩, foundLater, same⟩ :=
          Option.map_eq_some_iff.mp found
        obtain ⟨rfl, rfl⟩ := Prod.mk.inj same
        have different : c ≠ quote := by
          intro same
          rw [same] at notHere
          simp at notHere
        have quotedLater : quote ∈ value :=
          (List.mem_cons.mp quoted).resolve_left (Ne.symm different)
        exact Nat.succ_lt_succ (inductionHypothesis quotedLater foundLater)

/-- A value in double quotes is read back exactly when it is plain. -/
theorem quoted_eq_self_iff {value after rest : Text} {read : Text}
    (found : quoted ('"' :: value ++ '"' :: after) = some (read, rest)) :
    read = value ↔ Plain value := by
  rw [List.cons_append, quoted, if_pos (Or.inl rfl)] at found
  obtain ⟨⟨raw, later⟩, split, isRead⟩ := Option.bind_eq_some_iff.mp found
  obtain ⟨decoded, isDecoded, same⟩ := Option.map_eq_some_iff.mp isRead
  obtain ⟨rfl, rfl⟩ := Prod.mk.inj same
  by_cases hasQuote : '"' ∈ value
  · refine iff_of_false ?_ fun plain => ?_
    · intro same
      have shorter := upTo_quote_length_lt hasQuote split
      have bound := length_le_of_decode isDecoded
      rw [same] at bound
      dsimp only at bound
      omega
    · exact absurd (plain '"' hasQuote) (by decide)
  · rw [upTo_quote_of_not_mem hasQuote] at split
    obtain ⟨rfl, rfl⟩ := Prod.mk.inj (Option.some.inj split)
    rw [← attributeValue_eq_self_iff hasQuote]
    dsimp only at isDecoded
    rw [isDecoded, Option.some.injEq]

theorem quoted_plain {value : Text} (plain : Plain value) (after : Text) :
    quoted ('"' :: value ++ '"' :: after) = some (value, after) := by
  have unquoted : '"' ∉ value := by
    intro hasQuote
    exact absurd (plain '"' hasQuote) (by decide)
  rw [List.cons_append, quoted, if_pos (Or.inl rfl),
    upTo_quote_of_not_mem unquoted, Option.bind_some]
  dsimp only
  rw [(attributeValue_eq_self_iff unquoted).mpr plain]
  rfl

theorem isSpace_of_isNameStart {c : Char} (starts : isNameStart c = true) :
    isSpace c = false := by
  apply Bool.eq_false_iff.mpr
  intro space
  simp only [isSpace, Bool.or_eq_true, decide_eq_true_eq] at space
  rcases space with ((rfl | rfl) | rfl) | rfl
  · exact absurd starts (by decide)
  · exact absurd starts (by decide)
  · exact absurd starts (by decide)
  · exact absurd starts (by decide)

theorem skipSpace_name {found : Text} (valid : isName found = true)
    (after : Text) : skipSpace (' ' :: found ++ after) = found ++ after := by
  cases found with
  | nil => cases valid
  | cons c rest =>
      rw [isName, Bool.and_eq_true] at valid
      have notSpace := isSpace_of_isNameStart valid.1
      rw [skipSpace, List.cons_append,
        List.dropWhile_cons_of_pos (by decide), List.cons_append,
        List.dropWhile_cons_of_neg (by simp [notSpace])]

/-- One attribute and what follows it. -/
theorem attributes_cons {found : Text} (valid : isName found = true)
    (value after : Text) (fuel : Nat) :
    attributes (fuel + 1)
        (' ' :: found ++ '=' :: '"' :: value ++ '"' :: after) =
      (quoted ('"' :: value ++ '"' :: after)).bind fun (value, rest) =>
        (attributes fuel rest).bind fun (others, empty, rest) =>
          if others.any (·.1 = found) then none
          else some ((found, value) :: others, empty, rest) := by
  have start :
      skipSpace (' ' :: found ++ '=' :: '"' :: value ++ '"' :: after) =
        found ++ '=' :: ('"' :: value ++ '"' :: after) := by
    rw [List.append_assoc]
    exact skipSpace_name valid _
  have spaced :
      found ++ '=' :: ('"' :: value ++ '"' :: after) ≠
        ' ' :: found ++ '=' :: '"' :: value ++ '"' :: after := by
    intro same
    have lengths := congrArg List.length same
    simp at lengths
  have equal :
      equals ('=' :: ('"' :: value ++ '"' :: after)) =
        some ('"' :: value ++ '"' :: after) := by
    rfl
  rw [attributes, start, name_of_isName valid (by decide)]
  dsimp only
  rw [if_neg spaced, equal]
  rfl

theorem renderAttributes_cons (found value : Text)
    (rest : List (Text × Text)) (after : Text) :
    renderAttributes ((found, value) :: rest) ++ after =
      ' ' :: found ++ '=' :: '"' :: value ++
        '"' :: (renderAttributes rest ++ after) := by
  simp [renderAttributes]

theorem skipSpace_of_tagEnd {text rest : Text} {empty : Bool}
    (ends : tagEnd text = some (empty, rest)) : skipSpace text = text := by
  rw [tagEnd.eq_def] at ends
  split at ends
  · rfl
  · rfl
  · cases ends

/-- Attributes with distinct names and plain values are read back. -/
theorem attributes_render {written : List (Text × Text)}
    (valid : ∀ pair ∈ written, isName pair.1 = true)
    (distinct : (written.map Prod.fst).Nodup)
    (plain : ∀ pair ∈ written, Plain pair.2)
    {ending rest : Text} {empty : Bool}
    (ends : tagEnd ending = some (empty, rest)) {fuel : Nat}
    (enough : written.length < fuel) :
    attributes fuel (renderAttributes written ++ ending) =
      some (written, empty, rest) := by
  obtain ⟨fuel, rfl⟩ : ∃ other, fuel = other + 1 :=
    ⟨fuel - 1, by omega⟩
  induction written generalizing fuel with
  | nil =>
      have noName := name_eq_none_of_tagEnd ends []
      have noSpace := skipSpace_of_tagEnd ends
      rw [List.append_nil] at noName
      rw [renderAttributes, List.flatMap_nil, List.nil_append, attributes,
        noSpace, noName, ends]
      rfl
  | cons pair written inductionHypothesis =>
      obtain ⟨found, value⟩ := pair
      rw [List.map_cons, List.nodup_cons] at distinct
      obtain ⟨fuel, rfl⟩ : ∃ other, fuel = other + 1 :=
        ⟨fuel - 1, by simp at enough; omega⟩
      have readOthers :=
        inductionHypothesis
          (fun other member => valid other (List.mem_cons_of_mem _ member))
          distinct.2
          (fun other member => plain other (List.mem_cons_of_mem _ member))
          fuel (by simpa using enough)
      rw [renderAttributes_cons,
        attributes_cons (valid (found, value) (by simp)),
        quoted_plain (plain (found, value) (by simp)), Option.bind_some]
      dsimp only
      rw [readOthers, Option.bind_some]
      dsimp only
      have fresh : written.any (·.1 = found) = false := by
        apply List.any_eq_false.mpr
        intro other member
        simp only [decide_eq_true_eq]
        intro same
        apply distinct.1
        rw [← same]
        exact List.mem_map.mpr ⟨other, member, rfl⟩
      rw [fresh]
      rfl

theorem lookup_eq_some_of_mem {written : List (Text × Text)}
    (distinct : (written.map Prod.fst).Nodup) {pair : Text × Text}
    (member : pair ∈ written) : written.lookup pair.1 = some pair.2 := by
  induction written with
  | nil => cases member
  | cons first written inductionHypothesis =>
      rw [List.map_cons, List.nodup_cons] at distinct
      rcases List.mem_cons.mp member with rfl | member
      · exact List.lookup_cons_self
      · have different : (pair.1 == first.1) = false := by
          apply beq_false_of_ne
          intro same
          apply distinct.1
          rw [← same]
          exact List.mem_map.mpr ⟨pair, member, rfl⟩
        rw [List.lookup_cons, different]
        exact inductionHypothesis distinct.2 member

/-- A value that begins with markup is refused. -/
theorem quoted_markup (value after : Text) :
    quoted ('"' :: '<' :: value ++ '"' :: after) = none := by
  rw [List.cons_append, quoted, if_pos (Or.inl rfl), List.cons_append, upTo,
    if_neg (by simp)]
  cases upTo ['"'] (value ++ '"' :: after) with
  | none => rfl
  | some found => rfl

/-- When attributes have been read, the first value that is not plain has
been read as another value.  So all of them are plain when those that are not
have been read as they are. -/
theorem plain_of_attributes {written : List (Text × Text)}
    (valid : ∀ pair ∈ written, isName pair.1 = true)
    (distinct : (written.map Prod.fst).Nodup) {after rest : Text}
    {found : List (Text × Text)} {empty : Bool} {fuel : Nat}
    (read :
      attributes fuel (renderAttributes written ++ after) =
        some (found, empty, rest))
    (kept :
      ∀ pair ∈ written, Plain pair.2 ∨ pair.2.head? = some '<' ∨
        found.lookup pair.1 = some pair.2) :
    ∀ pair ∈ written, Plain pair.2 := by
  induction written generalizing found fuel with
  | nil => simp
  | cons pair written inductionHypothesis =>
      obtain ⟨name, value⟩ := pair
      rw [List.map_cons, List.nodup_cons] at distinct
      cases fuel with
      | zero => cases read
      | succ fuel =>
          rw [renderAttributes_cons,
            attributes_cons (valid (name, value) (by simp))] at read
          obtain ⟨⟨readValue, later⟩, isQuoted, read⟩ :=
            Option.bind_eq_some_iff.mp read
          obtain ⟨⟨others, _, _⟩, readOthers, same⟩ :=
            Option.bind_eq_some_iff.mp read
          rw [Option.ite_none_left_eq_some] at same
          simp only [Option.some.injEq, Prod.mk.injEq] at same
          obtain ⟨-, rfl, rfl, rfl⟩ := same
          have plain : Plain value := by
            rcases kept (name, value) (by simp) with plain | markup | found
            · exact plain
            · obtain ⟨value, rfl⟩ : ∃ rest, value = '<' :: rest := by
                cases value with
                | nil => cases markup
                | cons c value => exact ⟨value, by simpa using markup⟩
              rw [quoted_markup] at isQuoted
              cases isQuoted
            · rw [List.lookup_cons_self] at found
              exact (quoted_eq_self_iff isQuoted).mp (Option.some.inj found)
          rw [quoted_plain plain] at isQuoted
          obtain ⟨rfl, rfl⟩ := Prod.mk.inj (Option.some.inj isQuoted)
          have keptOthers :
              ∀ pair ∈ written, Plain pair.2 ∨ pair.2.head? = some '<' ∨
                others.lookup pair.1 = some pair.2 := by
            intro other member
            have different : (other.1 == name) = false := by
              apply beq_false_of_ne
              rintro rfl
              exact distinct.1 (List.mem_map.mpr ⟨other, member, rfl⟩)
            have keptHere := kept other (List.mem_cons_of_mem _ member)
            rw [List.lookup_cons, different] at keptHere
            exact keptHere
          exact
            List.forall_mem_cons.mpr
              ⟨plain,
                inductionHypothesis
                  (fun other member =>
                    valid other (List.mem_cons_of_mem _ member))
                  distinct.2 readOthers keptOthers⟩

/-! ## Elements -/

theorem length_le_renderAttributes (written : List (Text × Text)) :
    written.length ≤ (renderAttributes written).length := by
  induction written with
  | nil => exact Nat.le_refl 0
  | cons pair written inductionHypothesis =>
      obtain ⟨name, value⟩ := pair
      have unfolded := renderAttributes_cons name value written []
      rw [List.append_nil, List.append_nil] at unfolded
      rw [unfolded]
      simp only [List.length_cons, List.length_append]
      omega

/-- A tag name ends where its attributes or the end of the tag begin. -/
theorem name_render {tag : Text} (valid : isName tag = true)
    (written : List (Text × Text)) {ending rest : Text} {empty : Bool}
    (ends : tagEnd ending = some (empty, rest)) :
    name (tag ++ (renderAttributes written ++ ending)) =
      some (tag, renderAttributes written ++ ending) := by
  cases written with
  | nil =>
      rw [tagEnd.eq_def] at ends
      split at ends
      · exact name_of_isName valid (by decide) _
      · exact name_of_isName valid (by decide) _
      · cases ends
  | cons pair written =>
      obtain ⟨first, value⟩ := pair
      rw [renderAttributes_cons]
      exact name_of_isName valid (by decide) _

theorem startTag_render {tag : Text} (isTag : isName tag = true)
    {written : List (Text × Text)}
    (valid : ∀ pair ∈ written, isName pair.1 = true)
    (distinct : (written.map Prod.fst).Nodup)
    (plain : ∀ pair ∈ written, Plain pair.2)
    {ending rest : Text} {empty : Bool}
    (ends : tagEnd ending = some (empty, rest)) :
    startTag (tag ++ (renderAttributes written ++ ending)) =
      some (⟨tag, written, empty⟩, rest) := by
  have enough :
      written.length < (renderAttributes written ++ ending).length + 1 := by
    have bound := length_le_renderAttributes written
    rw [List.length_append]
    omega
  rw [startTag, name_render isTag written ends]
  simp only [Option.bind_eq_bind, Option.bind_some]
  rw [attributes_render valid distinct plain ends enough]
  rfl

/-- An element without content. -/
theorem element_render_empty {tag : Text} (isTag : isName tag = true)
    {written : List (Text × Text)}
    (valid : ∀ pair ∈ written, isName pair.1 = true)
    (distinct : (written.map Prod.fst).Nodup)
    (plain : ∀ pair ∈ written, Plain pair.2) (after : Text) (fuel : Nat) :
    element (fuel + 1)
        (tag ++ (renderAttributes written ++ '/' :: '>' :: after)) =
      some (⟨tag, written, []⟩, after) := by
  have ends : tagEnd ('/' :: '>' :: after) = some (true, after) := rfl
  rw [element, startTag_render isTag valid distinct plain ends]
  rfl

theorem endTag_of_isName {tag : Text} (isTag : isName tag = true)
    (after : Text) :
    endTag tag ('<' :: '/' :: (tag ++ '>' :: after)) = some after := by
  have named := @name_of_isName tag isTag '>' (by decide) after
  rw [endTag, named]
  simp only [Option.bind_eq_bind, Option.bind_some, if_true]
  rfl

/-- An element with content. -/
theorem element_render {tag : Text} (isTag : isName tag = true)
    {written : List (Text × Text)}
    (valid : ∀ pair ∈ written, isName pair.1 = true)
    (distinct : (written.map Prod.fst).Nodup)
    (plain : ∀ pair ∈ written, Plain pair.2)
    {body : Text} {children : List Node}
    (whole : wholeContent body = some children) (after : Text) {fuel : Nat}
    (enough : body.length < fuel) :
    element (fuel + 1)
        (tag ++ (renderAttributes written ++
          '>' :: (body ++ '<' :: '/' :: (tag ++ '>' :: after)))) =
      some (⟨tag, written, children⟩, after) := by
  have ends (text : Text) : tagEnd ('>' :: text) = some (false, text) := rfl
  rw [element, startTag_render isTag valid distinct plain (ends _),
    Option.bind_some]
  dsimp only
  rw [if_neg Bool.false_ne_true,
    content_of_wholeContent whole _ enough, Option.bind_some]
  dsimp only
  rw [endTag_of_isName isTag]
  rfl

/-- A text of name characters in front of a tag is read only if it is a
name. -/
theorem isName_of_startTag {tag : Text}
    (chars : ∀ c ∈ tag, isNameChar c = true)
    {written : List (Text × Text)} {ending : Text}
    (ends : ∃ c rest, ending = c :: rest ∧ isNameChar c = false)
    {found : Tag × Text}
    (read : startTag (tag ++ (renderAttributes written ++ ending)) =
      some found) :
    isName tag = true := by
  obtain ⟨c, rest, isEnding, stops⟩ := ends
  obtain ⟨other, later, isText, otherStops⟩ :
      ∃ other later, renderAttributes written ++ ending = other :: later ∧
        isNameChar other = false := by
    cases written with
    | nil => exact ⟨c, rest, isEnding, stops⟩
    | cons pair written =>
        obtain ⟨first, value⟩ := pair
        rw [renderAttributes_cons]
        exact ⟨' ', _, rfl, by decide⟩
  rw [isText] at read
  obtain ⟨start, named, -⟩ := Option.bind_eq_some_iff.mp read
  cases tag with
  | nil =>
      rw [List.nil_append, name, Option.ite_none_right_eq_some] at named
      simp [isNameChar, named.1] at otherStops
  | cons first tag =>
      rw [List.cons_append, name, Option.ite_none_right_eq_some] at named
      rw [isName, named.1, Bool.true_and]
      apply List.all_eq_true.mpr
      intro c member
      exact chars c (List.mem_cons_of_mem first member)

theorem startTag_of_element {fuel : Nat} {text rest : Text}
    {found : Element} (read : element fuel text = some (found, rest)) :
    ∃ tag later, startTag text = some (tag, later) ∧
      tag.name = found.name ∧ tag.attributes = found.attributes := by
  cases fuel with
  | zero => cases read
  | succ fuel =>
      rw [element] at read
      obtain ⟨⟨tag, later⟩, tagged, read⟩ := Option.bind_eq_some_iff.mp read
      refine ⟨tag, later, tagged, ?_⟩
      dsimp only at read
      split at read
      · rw [← (Prod.mk.inj (Option.some.inj read)).1]
        exact ⟨rfl, rfl⟩
      · obtain ⟨inside, -, read⟩ := Option.bind_eq_some_iff.mp read
        obtain ⟨closed, -, same⟩ := Option.map_eq_some_iff.mp read
        rw [← (Prod.mk.inj same).1]
        exact ⟨rfl, rfl⟩

/-- An end tag is no element. -/
theorem element_end (fuel : Nat) (text : Text) :
    element fuel ('/' :: text) = none := by
  cases fuel with
  | zero => rfl
  | succ fuel => rfl

theorem name_of_element_render {tag : Text}
    (chars : ∀ c ∈ tag, isNameChar c = true)
    {written : List (Text × Text)} {ending after rest : Text} {empty : Bool}
    (ends : tagEnd ending = some (empty, after)) {fuel : Nat}
    {found : Element}
    (read :
      element fuel (tag ++ (renderAttributes written ++ ending)) =
        some (found, rest)) :
    isName tag = true ∧ found.name = tag := by
  obtain ⟨started, later, start, sameName, -⟩ := startTag_of_element read
  have stops : ∃ c rest, ending = c :: rest ∧ isNameChar c = false := by
    rw [tagEnd.eq_def] at ends
    split at ends
    · exact ⟨'/', _, rfl, by decide⟩
    · exact ⟨'>', _, rfl, by decide⟩
    · cases ends
  have isTag := isName_of_startTag chars stops start
  refine ⟨isTag, ?_⟩
  rw [startTag, name_render isTag written ends] at start
  simp only [Option.bind_eq_bind, Option.bind_some] at start
  obtain ⟨⟨others, empty, left⟩, -, same⟩ :=
    Option.bind_eq_some_iff.mp start
  rw [← sameName, ← (Prod.mk.inj (Option.some.inj same)).1]

/-- An element without content is read back only when its values are plain,
as far as those that are not have been read as they are. -/
theorem element_render_empty_inv {tag : Text}
    (chars : ∀ c ∈ tag, isNameChar c = true)
    {written : List (Text × Text)}
    (valid : ∀ pair ∈ written, isName pair.1 = true)
    (distinct : (written.map Prod.fst).Nodup) {after rest : Text}
    {fuel : Nat} {found : Element}
    (read :
      element fuel
          (tag ++ (renderAttributes written ++ '/' :: '>' :: after)) =
        some (found, rest))
    (kept :
      ∀ pair ∈ written, Plain pair.2 ∨ pair.2.head? = some '<' ∨
        found.attributes.lookup pair.1 = some pair.2) :
    isName tag = true ∧ (∀ pair ∈ written, Plain pair.2) ∧
      found = ⟨tag, written, []⟩ ∧ rest = after := by
  obtain ⟨started, later, start, -, sameAttributes⟩ :=
    startTag_of_element read
  have ends : tagEnd ('/' :: '>' :: after) = some (true, after) := rfl
  obtain ⟨isTag, -⟩ := name_of_element_render chars ends read
  have plain : ∀ pair ∈ written, Plain pair.2 := by
    rw [startTag, name_render isTag written ends] at start
    simp only [Option.bind_eq_bind, Option.bind_some] at start
    obtain ⟨⟨others, empty, left⟩, attributed, same⟩ :=
      Option.bind_eq_some_iff.mp start
    simp only [Option.some.injEq, Prod.mk.injEq] at same
    rw [← same.1] at sameAttributes
    dsimp only at sameAttributes
    rw [← sameAttributes] at kept
    exact plain_of_attributes valid distinct attributed kept
  refine ⟨isTag, plain, ?_⟩
  cases fuel with
  | zero => cases read
  | succ fuel =>
      rw [element_render_empty isTag valid distinct plain] at read
      obtain ⟨rfl, rfl⟩ := Prod.mk.inj (Option.some.inj read)
      exact ⟨rfl, rfl⟩

/-- What is read inside an element begins after its start tag. -/
theorem content_of_element_render {tag : Text} (isTag : isName tag = true)
    {written : List (Text × Text)}
    (valid : ∀ pair ∈ written, isName pair.1 = true)
    (distinct : (written.map Prod.fst).Nodup)
    (plain : ∀ pair ∈ written, Plain pair.2) {inside rest : Text}
    {fuel : Nat} {found : Element}
    (read :
      element fuel (tag ++ (renderAttributes written ++ '>' :: inside)) =
        some (found, rest)) :
    ∃ fuel left, content fuel inside = some (found.children, left) := by
  have ends : tagEnd ('>' :: inside) = some (false, inside) := rfl
  cases fuel with
  | zero => cases read
  | succ fuel =>
      rw [element, startTag_render isTag valid distinct plain ends,
        Option.bind_some] at read
      dsimp only at read
      rw [if_neg Bool.false_ne_true] at read
      obtain ⟨⟨children, left⟩, isInside, read⟩ :=
        Option.bind_eq_some_iff.mp read
      obtain ⟨closed, -, same⟩ := Option.map_eq_some_iff.mp read
      refine ⟨fuel, left, ?_⟩
      rw [← (Prod.mk.inj same).1]
      exact isInside

/-! ## Documents -/

theorem markup_of_isNameStart {c : Char} (starts : isNameStart c = true)
    (rest : Text) : markup ('<' :: c :: rest) = .element (c :: rest) := by
  have different (stop : Char) (noStart : isNameStart stop = false) :
      stop ≠ c := by
    rintro rfl
    rw [starts] at noStart
    cases noStart
  have noEnd := different '/' (by decide)
  have noDeclaration := different '!' (by decide)
  have noInstruction := different '?' (by decide)
  simp [markup, List.cons_prefix_cons, noEnd, noDeclaration, noInstruction]

/-- What cannot begin a comment or an instruction ends content or begins an
element. -/
theorem markup_of_head {text : Text}
    (begins : ∀ c ∈ text.head?, c ≠ '!' ∧ c ≠ '?') :
    markup ('<' :: text) = .stop ∨ markup ('<' :: text) = .element text := by
  cases text with
  | nil => exact Or.inr rfl
  | cons c text =>
      obtain ⟨noDeclaration, noInstruction⟩ := begins c rfl
      have noDeclaration := Ne.symm noDeclaration
      have noInstruction := Ne.symm noInstruction
      by_cases isEnd : '/' = c
      · subst isEnd
        exact Or.inl (by simp [markup, List.cons_prefix_cons])
      · refine Or.inr ?_
        simp [markup, List.cons_prefix_cons, isEnd, noDeclaration,
          noInstruction]

theorem skipMisc_markup {text : Text}
    (begins : ∀ c ∈ text.head?, c ≠ '!' ∧ c ≠ '?') (fuel : Nat) :
    skipMisc (fuel + 1) ('<' :: text) = some ('<' :: text) := by
  have noSpace : skipSpace ('<' :: text) = '<' :: text := rfl
  rw [skipMisc, noSpace]
  rcases markup_of_head begins with isStop | isElement
  · rw [isStop]
  · rw [isElement]

theorem head_render {tag : Text} (chars : ∀ c ∈ tag, isNameChar c = true)
    (written : List (Text × Text)) {ending after : Text} {empty : Bool}
    (ends : tagEnd ending = some (empty, after)) :
    ∀ c ∈ (tag ++ (renderAttributes written ++ ending)).head?,
      c ≠ '!' ∧ c ≠ '?' := by
  intro c isHead
  cases tag with
  | nil =>
      cases written with
      | nil =>
          rw [tagEnd.eq_def] at ends
          split at ends
          · obtain rfl := Option.some.inj isHead
            decide
          · obtain rfl := Option.some.inj isHead
            decide
          · cases ends
      | cons pair written =>
          obtain ⟨first, value⟩ := pair
          rw [renderAttributes_cons] at isHead
          obtain rfl := Option.some.inj isHead
          decide
  | cons first tag =>
      obtain rfl := Option.some.inj isHead
      have valid := chars first List.mem_cons_self
      refine ⟨?_, ?_⟩
      · rintro rfl
        exact absurd valid (by decide)
      · rintro rfl
        exact absurd valid (by decide)

/-- A document that begins with an element consists of it. -/
theorem document_eq {text : Text}
    (begins : ∀ c ∈ text.head?, c ≠ '!' ∧ c ≠ '?') :
    document ('<' :: text) =
      (element (text.length + 2) text).bind fun (root, rest) =>
        if skipMisc (text.length + 2) rest = some [] then some root
        else none := by
  rw [document, skipMisc_markup begins]
  rfl

theorem head_of_isNameStart {c : Char} (starts : isNameStart c = true) :
    c ≠ '!' ∧ c ≠ '?' := by
  refine ⟨?_, ?_⟩
  · rintro rfl
    exact absurd starts (by decide)
  · rintro rfl
    exact absurd starts (by decide)

/-- Content that begins with an element. -/
theorem content_element {tag after rest : Text} {found : Element}
    (isTag : isName tag = true) {fuel : Nat}
    (read : element fuel (tag ++ after) = some (found, rest)) :
    content (fuel + 1) ('<' :: (tag ++ after)) =
      (content fuel rest).map (prepend found.node) := by
  cases tag with
  | nil => cases isTag
  | cons c tag =>
      rw [isName, Bool.and_eq_true] at isTag
      rw [List.cons_append] at read ⊢
      rw [content, markup_of_isNameStart isTag.1]
      dsimp only
      rw [read]
      rfl

/-- Content that begins with character data. -/
theorem content_charData {raw value after : Text} (nonempty : raw ≠ [])
    (noMarkup : '<' ∉ raw) (read : charData raw = some value)
    (begins : ∀ c ∈ after.head?, c = '<') (fuel : Nat) :
    content (fuel + 1) (raw ++ after) =
      (content fuel after).map (prepend (.text value)) := by
  have kept : ∀ c ∈ raw, decide (c ≠ '<') = true := by
    intro c member
    rw [decide_eq_true_eq]
    rintro rfl
    exact noMarkup member
  have stops : after.takeWhile (· ≠ '<') = [] ∧
      after.dropWhile (· ≠ '<') = after := by
    cases after with
    | nil => exact ⟨rfl, rfl⟩
    | cons c after =>
        obtain rfl := begins c rfl
        exact ⟨rfl, rfl⟩
  have isData : data (raw ++ after) = some (.text value, after) := by
    rw [data, List.takeWhile_append_of_pos kept,
      List.dropWhile_append_of_pos kept, stops.1, stops.2, List.append_nil,
      read]
    rfl
  cases raw with
  | nil => exact absurd rfl nonempty
  | cons c raw =>
      have notMarkup : c ≠ '<' := by
        rintro rfl
        exact noMarkup List.mem_cons_self
      rw [List.cons_append] at isData ⊢
      rw [content, markup, if_neg notMarkup, isData]
      rfl

/-- Content that is one element. -/
theorem wholeContent_of_element {tag after : Text} {root : Element}
    (isTag : isName tag = true)
    (read :
      element ((tag ++ after).length + 1) (tag ++ after) =
        some (root, [])) :
    wholeContent ('<' :: (tag ++ after)) = some [root.node] := by
  rw [wholeContent, List.length_cons, content_element isTag read]
  rfl

/-- A document that is one element. -/
theorem document_of_element {tag after : Text} {root : Element}
    (isTag : isName tag = true)
    (read :
      element ((tag ++ after).length + 2) (tag ++ after) =
        some (root, [])) :
    document ('<' :: (tag ++ after)) = some root := by
  cases tag with
  | nil => cases isTag
  | cons c tag =>
      rw [isName, Bool.and_eq_true] at isTag
      have begins :
          ∀ other ∈ (c :: tag ++ after).head?, other ≠ '!' ∧ other ≠ '?' := by
        intro other isOther
        obtain rfl := Option.some.inj isOther
        exact head_of_isNameStart isTag.1
      rw [document_eq begins, read]
      rfl

end Xml

import Mathlib.Data.List.Forall2

/-!
# UTF-8

Encoding, and decoding of arbitrary bytes, where a malformed sequence becomes
the replacement character.  The second half is about a text whose bytes are cut
into pieces that are decoded one by one: a character that a cut falls into is
lost, and two or more replacement characters stand for it.
-/

namespace Utf8

/-! ## Encoding and decoding -/

def encode (text : List Char) : List UInt8 :=
  text.flatMap String.utf8EncodeChar

@[simp]
theorem encode_cons (c : Char) (text : List Char) :
    encode (c :: text) = String.utf8EncodeChar c ++ encode text :=
  rfl

@[simp]
theorem encode_append (text rest : List Char) :
    encode (text ++ rest) = encode text ++ encode rest :=
  List.flatMap_append

def replacement : Char := '\uFFFD'

/-- The character whose encoding the bytes start with. -/
def leading (bytes : List UInt8) : Option Char :=
  bytes.toByteArray.utf8DecodeChar? 0

def isContinuation (byte : UInt8) : Bool :=
  byte &&& 0xC0 = 0x80

/-- How many bytes one replacement character stands for, when the bytes do
not start with a character. -/
def malformedLength : List UInt8 → Nat
  | first :: second :: rest =>
      let cut := if rest.head?.any isContinuation then 3 else 2
      if first &&& 0xF0 = 0xE0 then
        if (first = 0xE0 ∧ second &&& 0xE0 = 0x80) ∨
            ¬isContinuation second then 1
        else cut
      else if first &&& 0xF8 = 0xF0 then
        if 0xF4 < first ∨ (first = 0xF0 ∧ second < 0x90) ∨
            (first = 0xF4 ∧ second &&& 0xF0 ≠ 0x80) ∨
            ¬isContinuation second then 1
        else cut
      else 1
  | _ => 1

/-- Decoding after some bytes that belong to the previous character. -/
def decodeAfter : Nat → List UInt8 → List Char
  | _, [] => []
  | skipped + 1, _ :: bytes => decodeAfter skipped bytes
  | 0, byte :: bytes =>
      match leading (byte :: bytes) with
      | some c => c :: decodeAfter (c.utf8Size - 1) bytes
      | none =>
          replacement ::
            decodeAfter (malformedLength (byte :: bytes) - 1) bytes

def decode (bytes : List UInt8) : List Char :=
  decodeAfter 0 bytes

@[simp]
theorem decode_nil : decode [] = [] :=
  rfl

theorem decodeAfter_eq_decode_drop (skipped : Nat) (bytes : List UInt8) :
    decodeAfter skipped bytes = decode (bytes.drop skipped) := by
  induction bytes generalizing skipped with
  | nil =>
      rw [List.drop_nil]
      cases skipped <;> rfl
  | cons byte bytes inductionHypothesis =>
      cases skipped with
      | zero => rfl
      | succ skipped => exact inductionHypothesis skipped

theorem decode_of_leading {bytes : List UInt8} {c : Char}
    (starts : leading bytes = some c) :
    decode bytes = c :: decode (bytes.drop c.utf8Size) := by
  cases bytes with
  | nil => cases starts
  | cons byte bytes =>
      have size : c.utf8Size = c.utf8Size - 1 + 1 :=
        (Nat.sub_add_cancel c.utf8Size_pos).symm
      rw [decode, decodeAfter, starts, size, List.drop_succ_cons]
      exact congrArg (c :: ·) (decodeAfter_eq_decode_drop _ bytes)

theorem decode_of_malformed {byte : UInt8} {bytes : List UInt8}
    (malformed : leading (byte :: bytes) = none) :
    decode (byte :: bytes) =
      replacement ::
        decode (bytes.drop (malformedLength (byte :: bytes) - 1)) := by
  rw [decode, decodeAfter, malformed]
  exact congrArg (replacement :: ·) (decodeAfter_eq_decode_drop _ bytes)

theorem decode_ne_nil {bytes : List UInt8} (nonempty : bytes ≠ []) :
    decode bytes ≠ [] := by
  cases bytes with
  | nil => exact absurd rfl nonempty
  | cons byte bytes =>
      cases starts : leading (byte :: bytes) with
      | none =>
          rw [decode_of_malformed starts]
          exact List.cons_ne_nil _ _
      | some c =>
          rw [decode_of_leading starts]
          exact List.cons_ne_nil _ _

/-- No character is cut short by what follows it. -/
theorem leading_utf8EncodeChar_append (c : Char) (rest : List UInt8) :
    leading (String.utf8EncodeChar c ++ rest) = some c := by
  rw [leading, List.toByteArray_append]
  exact ByteArray.utf8DecodeChar?_utf8EncodeChar_append

theorem eq_append_of_leading {bytes : List UInt8} {c : Char}
    (starts : leading bytes = some c) :
    ∃ rest, bytes = String.utf8EncodeChar c ++ rest := by
  obtain ⟨rest, split⟩ := ByteArray.exists_of_utf8DecodeChar?_eq_some starts
  refine ⟨rest.data.toList, ?_⟩
  have lists := congrArg (fun array => array.data.toList) split
  simpa using lists

theorem decode_utf8EncodeChar_append (c : Char) (rest : List UInt8) :
    decode (String.utf8EncodeChar c ++ rest) = c :: decode rest := by
  rw [decode_of_leading (leading_utf8EncodeChar_append c rest),
    ← String.length_utf8EncodeChar, List.drop_left]

/-- Decoding inverts encoding, whatever follows. -/
theorem decode_encode_append (text : List Char) (rest : List UInt8) :
    decode (encode text ++ rest) = text ++ decode rest := by
  induction text with
  | nil => rfl
  | cons c text inductionHypothesis =>
      rw [encode_cons, List.append_assoc, decode_utf8EncodeChar_append,
        inductionHypothesis, List.cons_append]

theorem decode_encode (text : List Char) : decode (encode text) = text := by
  have whole := decode_encode_append text []
  rwa [decode_nil, List.append_nil, List.append_nil] at whole

theorem encode_flatten (texts : List (List Char)) :
    encode texts.flatten = (texts.map encode).flatten := by
  rw [encode, List.flatten_eq_flatMap, List.flatMap_assoc]
  rfl

theorem map_decode_encode (texts : List (List Char)) :
    (texts.map encode).map decode = texts := by
  rw [List.map_map]
  exact List.map_id'' decode_encode texts

/-! ## Parts of a character -/

/-- Bytes that a character does not start with. -/
def Trailing (bytes : List UInt8) : Prop :=
  ∀ byte ∈ bytes, ¬byte.IsUTF8FirstByte

theorem leading_of_trailing {byte : UInt8} (bytes : List UInt8)
    (notFirst : ¬byte.IsUTF8FirstByte) :
    leading (byte :: bytes) = none := by
  cases starts : leading (byte :: bytes) with
  | none => rfl
  | some c =>
      have first :=
        ByteArray.isUTF8FirstByte_of_isSome_utf8DecodeChar?
          (Option.isSome_of_eq_some starts)
      exact absurd (by simpa using first) notFirst

theorem malformedLength_of_trailing {byte : UInt8} (bytes : List UInt8)
    (notFirst : ¬byte.IsUTF8FirstByte) :
    malformedLength (byte :: bytes) = 1 := by
  simp only [UInt8.IsUTF8FirstByte, not_or] at notFirst
  obtain ⟨_, _, notThree, notFour⟩ := notFirst
  cases bytes with
  | nil => rfl
  | cons second rest =>
      rw [malformedLength, if_neg notThree, if_neg notFour]

/-- Each byte of the rest of a character becomes a replacement character. -/
theorem decode_trailing_append {trailing : List UInt8}
    (isTrailing : Trailing trailing) (bytes : List UInt8) :
    decode (trailing ++ bytes) =
      List.replicate trailing.length replacement ++ decode bytes := by
  induction trailing with
  | nil => rfl
  | cons byte trailing inductionHypothesis =>
      obtain ⟨notFirst, others⟩ := List.forall_mem_cons.mp isTrailing
      rw [List.cons_append,
        decode_of_malformed (leading_of_trailing _ notFirst),
        malformedLength_of_trailing _ notFirst, Nat.sub_self,
        List.drop_zero, inductionHypothesis others]
      rfl

theorem decode_trailing {trailing : List UInt8}
    (isTrailing : Trailing trailing) :
    decode trailing = List.replicate trailing.length replacement := by
  have decoded := decode_trailing_append isTrailing []
  rwa [decode_nil, List.append_nil, List.append_nil] at decoded

theorem trailing_of_utf8EncodeChar {c : Char} {front back : List UInt8}
    (parts : String.utf8EncodeChar c = front ++ back)
    (started : front ≠ []) : Trailing back := by
  intro byte member first
  obtain ⟨i, bound, rfl⟩ := List.getElem_of_mem member
  have index : front.length + i < (String.utf8EncodeChar c).length := by
    rw [parts, List.length_append]
    exact Nat.add_lt_add_left bound _
  have same : (String.utf8EncodeChar c)[front.length + i] = back[i] := by
    simp [parts]
  rw [← same, UInt8.isUTF8FirstByte_getElem_utf8EncodeChar] at first
  exact started (List.eq_nil_of_length_eq_zero (by omega))

/-- The first bytes of a character, when some are missing, become replacement
characters too. -/
theorem decode_front {c : Char} {front back : List UInt8}
    (parts : String.utf8EncodeChar c = front ++ back)
    (started : front ≠ []) (missing : back ≠ []) :
    ∃ more, decode front = List.replicate (more + 1) replacement := by
  have malformed : leading front = none := by
    cases starts : leading front with
    | none => rfl
    | some found =>
        obtain ⟨rest, split⟩ := eq_append_of_leading starts
        rw [split, List.append_assoc] at parts
        have same : some c = some found := by
          rw [← leading_utf8EncodeChar_append found (rest ++ back), ← parts,
            ← List.append_nil (String.utf8EncodeChar c),
            leading_utf8EncodeChar_append]
        cases same
        have nothing := List.self_eq_append_right.mp parts
        exact absurd (List.append_eq_nil_iff.mp nothing).2 missing
  cases front with
  | nil => exact absurd rfl started
  | cons byte others =>
      have isTrailing : Trailing (others ++ back) :=
        @trailing_of_utf8EncodeChar c [byte] _ parts (List.cons_ne_nil _ _)
      have skipped :
          Trailing (others.drop (malformedLength (byte :: others) - 1)) :=
        fun later member => isTrailing later
          (List.mem_append_left back (List.mem_of_mem_drop member))
      rw [decode_of_malformed malformed, decode_trailing skipped]
      exact ⟨_, rfl⟩

example :
    decode [0xF0, 0x9F, 0x98, 0x41, 0x80] =
      [replacement, 'A', replacement] := by
  decide +kernel

/-- The cut between the bytes falls between two characters or into one. -/
theorem parts_of_encode {text : List Char} :
    ∀ {front back : List UInt8}, encode text = front ++ back →
      ∃ before after, text = before ++ after ∧
        ((front = encode before ∧ back = encode after) ∨
          ∃ c later part missing, after = c :: later ∧
            String.utf8EncodeChar c = part ++ missing ∧
            part ≠ [] ∧ missing ≠ [] ∧
            front = encode before ++ part ∧
            back = missing ++ encode later) := by
  induction text with
  | nil =>
      intro front back parts
      obtain ⟨rfl, rfl⟩ := List.append_eq_nil_iff.mp parts.symm
      exact ⟨[], [], rfl, Or.inl ⟨rfl, rfl⟩⟩
  | cons c text inductionHypothesis =>
      intro front back parts
      rw [encode_cons] at parts
      rcases List.append_eq_append_iff.mp parts with
        ⟨more, rfl, rest⟩ | ⟨missing, whole, rfl⟩
      · obtain ⟨before, after, rfl, cut⟩ := inductionHypothesis rest
        refine ⟨c :: before, after, rfl, ?_⟩
        rcases cut with ⟨rfl, rfl⟩ |
          ⟨d, later, part, missing, rfl, split, started, left, rfl, rfl⟩
        · exact Or.inl ⟨rfl, rfl⟩
        · exact Or.inr ⟨d, later, part, missing, rfl, split, started, left,
            by rw [encode_cons, List.append_assoc], rfl⟩
      · by_cases started : front = []
        · subst started
          refine ⟨[], c :: text, rfl, Or.inl ⟨rfl, ?_⟩⟩
          rw [encode_cons, whole, List.nil_append]
        · by_cases left : missing = []
          · subst left
            rw [List.append_nil] at whole
            refine ⟨[c], text, rfl, Or.inl ⟨?_, rfl⟩⟩
            rw [← whole, encode_cons]
            exact (List.append_nil _).symm
          · exact ⟨[], c :: text, rfl, Or.inr ⟨c, text, front, missing, rfl,
              whole, started, left, rfl, rfl⟩⟩

theorem nonAscii_of_parts {c : Char} {part missing : List UInt8}
    (parts : String.utf8EncodeChar c = part ++ missing)
    (started : part ≠ []) (left : missing ≠ []) : 128 ≤ c.toNat := by
  have size : 2 ≤ c.utf8Size := by
    rw [← String.length_utf8EncodeChar, parts, List.length_append]
    exact Nat.add_le_add (List.length_pos_of_ne_nil started)
      (List.length_pos_of_ne_nil left)
  by_contra ascii
  have single : c.utf8Size = 1 := by
    rw [Char.utf8Size_eq_one_iff, UInt32.le_iff_toNat_le]
    exact Nat.le_of_lt_succ (Nat.not_le.mp ascii)
  omega

/-! ## Texts in pieces -/

/-- What becomes of a text when some of its characters are lost. -/
inductive Damaged : List Char → List Char → Prop
  | nil : Damaged [] []
  | kept (c : Char) {text spelt : List Char} :
      Damaged text spelt → Damaged (c :: text) (c :: spelt)
  | lost (c : Char) (more : Nat) {text spelt : List Char} :
      128 ≤ c.toNat → Damaged text spelt →
      Damaged (c :: text)
        (List.replicate (more + 2) replacement ++ spelt)

namespace Damaged

theorem append_left (before : List Char) {text spelt : List Char}
    (damaged : Damaged text spelt) :
    Damaged (before ++ text) (before ++ spelt) := by
  induction before with
  | nil => exact damaged
  | cons c before inductionHypothesis => exact .kept c inductionHypothesis

theorem split {first : List Char} :
    ∀ {second spelt : List Char}, Damaged (first ++ second) spelt →
      ∃ front back, spelt = front ++ back ∧ Damaged first front ∧
        Damaged second back := by
  induction first with
  | nil =>
      intro second spelt damaged
      exact ⟨[], spelt, rfl, .nil, damaged⟩
  | cons c first inductionHypothesis =>
      intro second spelt damaged
      cases damaged with
      | kept _ rest =>
          obtain ⟨front, back, rfl, begun, ended⟩ := inductionHypothesis rest
          exact ⟨c :: front, back, rfl, .kept c begun, ended⟩
      | lost _ more nonAscii rest =>
          obtain ⟨front, back, rfl, begun, ended⟩ := inductionHypothesis rest
          exact ⟨_, back, (List.append_assoc _ _ _).symm,
            .lost c more nonAscii begun, ended⟩

theorem flatten {texts : List (List Char)} :
    ∀ {spelt : List Char}, Damaged texts.flatten spelt →
      ∃ spellings : List (List Char), spelt = spellings.flatten ∧
        List.Forall₂ Damaged texts spellings := by
  induction texts with
  | nil =>
      intro spelt damaged
      cases damaged
      exact ⟨[], rfl, .nil⟩
  | cons text texts inductionHypothesis =>
      intro spelt damaged
      obtain ⟨front, back, rfl, begun, ended⟩ := damaged.split
      obtain ⟨spellings, rfl, each⟩ := inductionHypothesis ended
      exact ⟨front :: spellings, rfl, .cons begun each⟩

theorem count_ascii {text spelt : List Char} (damaged : Damaged text spelt)
    {d : Char} (ascii : d.toNat < 128) : spelt.count d = text.count d := by
  induction damaged with
  | nil => rfl
  | kept c _ inductionHypothesis =>
      rw [List.count_cons, List.count_cons, inductionHypothesis]
  | lost c more nonAscii _ inductionHypothesis =>
      have notLost : c ≠ d := by
        rintro rfl
        exact Nat.not_le.mpr ascii nonAscii
      have notPut : replacement ≠ d := by
        rintro rfl
        exact absurd ascii (by decide)
      rw [List.count_append, List.count_replicate, List.count_cons,
        if_neg (by simpa using notPut), if_neg (by simpa using notLost),
        inductionHypothesis, Nat.zero_add, Nat.add_zero]

theorem count_replacement_le {text spelt : List Char}
    (damaged : Damaged text spelt) :
    text.count replacement ≤ spelt.count replacement := by
  induction damaged with
  | nil => exact Nat.le_refl _
  | kept c _ inductionHypothesis =>
      rw [List.count_cons, List.count_cons]
      exact Nat.add_le_add_right inductionHypothesis _
  | lost c more _ _ inductionHypothesis =>
      rw [List.count_append, List.count_replicate_self, List.count_cons]
      split <;> omega

/-- Where the spelling has a word of ASCII characters, the text has it. -/
theorem of_append {word : List Char} (ascii : ∀ d ∈ word, d.toNat < 128) :
    ∀ {text after : List Char}, Damaged text (word ++ after) →
      ∃ rest, text = word ++ rest ∧ Damaged rest after := by
  induction word with
  | nil =>
      intro text after damaged
      exact ⟨text, rfl, damaged⟩
  | cons d word inductionHypothesis =>
      intro text after damaged
      obtain ⟨first, others⟩ := List.forall_mem_cons.mp ascii
      generalize spelling : d :: word ++ after = spelt at damaged
      cases damaged with
      | nil => cases spelling
      | kept c damaged =>
          obtain ⟨rfl, rfl⟩ := List.cons.inj spelling
          obtain ⟨rest, rfl, end_⟩ := inductionHypothesis others damaged
          exact ⟨rest, rfl, end_⟩
      | lost c more nonAscii damaged =>
          obtain ⟨rfl, _⟩ := List.cons.inj spelling
          exact absurd first (by decide)

theorem eq_of_ascii {word spelt : List Char}
    (ascii : ∀ d ∈ word, d.toNat < 128) (damaged : Damaged word spelt) :
    spelt = word := by
  induction damaged with
  | nil => rfl
  | kept c _ inductionHypothesis =>
      rw [inductionHypothesis (List.forall_mem_cons.mp ascii).2]
  | lost c more nonAscii _ _ =>
      exact absurd (ascii c List.mem_cons_self) (Nat.not_lt.mpr nonAscii)

theorem of_occurrence {word : List Char} (ascii : ∀ d ∈ word, d.toNat < 128)
    (nonempty : word ≠ []) {text spelt : List Char}
    (damaged : Damaged text spelt) :
    ∀ {before after : List Char}, spelt = before ++ word ++ after →
      ∃ front back, text = front ++ word ++ back ∧
        Damaged front before ∧ Damaged back after := by
  induction damaged with
  | nil =>
      intro before after occurrence
      have empty := List.append_eq_nil_iff.mp occurrence.symm
      exact absurd (List.append_eq_nil_iff.mp empty.1).2 nonempty
  | @kept c text spelt damaged inductionHypothesis =>
      intro before after occurrence
      cases before with
      | nil =>
          have whole : Damaged (c :: text) (word ++ after) :=
            occurrence ▸ .kept c damaged
          obtain ⟨rest, split, ended⟩ := of_append ascii whole
          exact ⟨[], rest, split, .nil, ended⟩
      | cons d before =>
          obtain ⟨rfl, rest⟩ := List.cons.inj occurrence
          obtain ⟨front, back, rfl, begun, ended⟩ := inductionHypothesis rest
          exact ⟨c :: front, back, rfl, .kept c begun, ended⟩
  | @lost c more text spelt nonAscii damaged inductionHypothesis =>
      intro before after occurrence
      rw [List.append_assoc] at occurrence
      rcases List.append_eq_append_iff.mp occurrence with
        ⟨between, rfl, rest⟩ | ⟨tail, block, rest⟩
      · rw [← List.append_assoc] at rest
        obtain ⟨front, back, rfl, begun, ended⟩ := inductionHypothesis rest
        exact ⟨c :: front, back, rfl, .lost c more nonAscii begun, ended⟩
      · cases tail with
        | nil =>
            obtain ⟨front, back, rfl, begun, ended⟩ :=
              @inductionHypothesis [] after rest.symm
            rw [List.append_nil] at block
            refine ⟨c :: front, back, rfl, ?_, ended⟩
            have alone := Damaged.lost c more nonAscii begun
            rwa [List.append_nil, block] at alone
        | cons put tail =>
            obtain ⟨d, word, rfl⟩ := List.exists_cons_of_ne_nil nonempty
            obtain ⟨rfl, _⟩ := List.cons.inj rest
            have member : d ∈ List.replicate (more + 2) replacement :=
              block ▸ List.mem_append_right before List.mem_cons_self
            rw [List.eq_of_mem_replicate member] at ascii
            exact absurd (ascii _ List.mem_cons_self) (by decide)

end Damaged

/-- Each piece is the encoding of a text. -/
def Whole (pieces : List (List UInt8)) : Prop :=
  ∃ texts : List (List Char), pieces = texts.map encode

theorem Whole.cons {pieces : List (List UInt8)} (text : List Char)
    (whole : Whole pieces) : Whole (encode text :: pieces) := by
  obtain ⟨texts, rfl⟩ := whole
  exact ⟨text :: texts, rfl⟩

/-- The pieces spell the text with the characters lost that a cut falls
into, and there are more replacement characters then. -/
theorem decode_pieces {pieces : List (List UInt8)} :
    ∀ {trailing : List UInt8} {text : List Char}, Trailing trailing →
      pieces.flatten = trailing ++ encode text →
      ∃ before spelt,
        (pieces.map decode).flatten =
          List.replicate before replacement ++ spelt ∧
        Damaged text spelt ∧ (before = 0 ↔ trailing = []) ∧
        (trailing = [] → Whole pieces ∨
          text.count replacement < spelt.count replacement) := by
  induction pieces with
  | nil =>
      intro trailing text _ whole
      obtain ⟨rfl, empty⟩ := List.append_eq_nil_iff.mp whole.symm
      obtain rfl : text = [] := by
        rw [← decode_encode text, empty]
        rfl
      exact ⟨0, [], rfl, .nil, Iff.intro (fun _ => rfl) (fun _ => rfl),
        fun _ => Or.inl ⟨[], rfl⟩⟩
  | cons piece pieces inductionHypothesis =>
      intro trailing text isTrailing whole
      rw [List.flatten_cons] at whole
      rw [List.map_cons, List.flatten_cons]
      rcases List.append_eq_append_iff.mp whole with
        ⟨rest, rfl, later⟩ | ⟨part, rfl, parts⟩
      · have pieceTrailing : Trailing piece :=
          fun byte member => isTrailing byte (List.mem_append_left _ member)
        have restTrailing : Trailing rest :=
          fun byte member => isTrailing byte (List.mem_append_right _ member)
        obtain ⟨before, spelt, spelling, damaged, isStart, outcome⟩ :=
          inductionHypothesis restTrailing later
        refine ⟨piece.length + before, spelt, ?_, damaged, ?_, ?_⟩
        · rw [decode_trailing pieceTrailing, spelling, ← List.append_assoc,
            List.replicate_append_replicate]
        · rw [Nat.add_eq_zero_iff, isStart, List.length_eq_zero_iff,
            List.append_eq_nil_iff]
        · intro start
          obtain ⟨rfl, rfl⟩ := List.append_eq_nil_iff.mp start
          exact (outcome rfl).imp (Whole.cons []) id
      · rw [decode_trailing_append isTrailing]
        obtain ⟨front, back, rfl, cut⟩ := parts_of_encode parts
        have count_front := @List.count_append Char _ replacement front
        rcases cut with ⟨rfl, last⟩ |
          ⟨c, later, started, missing, rfl, split, notStart, notEnd, rfl, last⟩
        · obtain ⟨before, spelt, spelling, damaged, isStart, outcome⟩ :=
            @inductionHypothesis [] back (fun _ member => nomatch member) last
          obtain rfl := isStart.mpr rfl
          refine ⟨trailing.length, front ++ spelt, ?_,
            damaged.append_left front, List.length_eq_zero_iff, ?_⟩
          · rw [spelling, decode_encode, List.append_assoc]
            rfl
          · intro start
            subst start
            refine (outcome rfl).imp (Whole.cons front) ?_
            intro more
            rw [count_front, count_front]
            exact Nat.add_lt_add_left more _
        · obtain ⟨before, spelt, spelling, damaged, isStart, _⟩ :=
            inductionHypothesis (trailing_of_utf8EncodeChar split notStart) last
          obtain ⟨more, decoded⟩ := decode_front split notStart notEnd
          obtain ⟨fewer, rfl⟩ : ∃ fewer, before = fewer + 1 :=
            Nat.exists_eq_succ_of_ne_zero (mt isStart.mp notEnd)
          have lost := Damaged.lost c (more + fewer)
            (nonAscii_of_parts split notStart notEnd) damaged
          refine ⟨trailing.length, _, ?_, lost.append_left front,
            List.length_eq_zero_iff, ?_⟩
          · rw [spelling, decode_encode_append, decoded]
            simp only [List.append_assoc]
            rw [← List.append_assoc (List.replicate (more + 1) replacement),
              List.replicate_append_replicate]
            congr 4
            omega
          · intro _
            refine Or.inr ?_
            have kept := damaged.count_replacement_le
            rw [count_front, count_front, List.count_append,
              List.count_replicate_self, List.count_cons]
            split <;> omega

end Utf8

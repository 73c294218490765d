import LocationServer.TinyXml.Reading

/-!
# Rows and columns (`TiXmlParsingData`)

The functions of the parser move the cursor of the document along, by `Stamp`,
to the byte where they start or find an error.  No result of a parse depends
on the cursor, but its loop has to end: in UTF-8 it waits for ever at a byte
`0xEF` with less than two bytes behind it.
-/

namespace LocationServer

structure TiXmlCursor where
  row : Int := -1
  col : Int := -1
  deriving DecidableEq, Repr

structure TiXmlParsingData where
  cursor : TiXmlCursor := {}
  stamp : List Char
  tabsize : Int := 4
  deriving DecidableEq, Repr

namespace TiXmlCursor

/-- `++row; col = 0;` -/
def nextLine (cursor : TiXmlCursor) : TiXmlCursor where
  row := cursor.row + 1
  col := 0

/-- `++col;` -/
def nextColumn (cursor : TiXmlCursor) : TiXmlCursor :=
  { cursor with col := cursor.col + 1 }

/-- The next tab stop. -/
def nextTab (cursor : TiXmlCursor) (tabsize : Int) : TiXmlCursor :=
  { cursor with col := (cursor.col.tdiv tabsize + 1) * tabsize }

end TiXmlCursor

/-- Move past one expected byte, if it is the next one. -/
def skipByte (expected : Char) : List Char → List Char
  | c :: p => if c = expected then p else c :: p
  | [] => []

/-- The byte `0xEF` of UTF-8 and the two behind it.  Where one of these is the
NUL, the pointer stays. -/
def eatMark (cursor : TiXmlCursor) (c : Char) :
    List Char → TiXmlCursor × List Char
  | second :: third :: rest =>
      if isByteOrderMark c second third then (cursor, rest)
      else (cursor.nextColumn, rest)
  | p => (cursor, c :: p)

/-- The body of the loop of `Stamp`. -/
def stampStep (encoding : TiXmlEncoding) (tabsize : Int)
    (cursor : TiXmlCursor) : List Char → TiXmlCursor × List Char
  | [] => (cursor, [])
  | c :: p =>
      if c = '\r' then (cursor.nextLine, skipByte '\n' p)
      else if c = '\n' then (cursor.nextLine, skipByte '\r' p)
      else if c = '\t' then (cursor.nextTab tabsize, p)
      else if c = '\xef' then
        if encoding = .utf8 then eatMark cursor c p
        else (cursor.nextColumn, p)
      else if encoding = .utf8 then
        let step := if utf8ByteTable c = 0 then 1 else utf8ByteTable c
        -- A step over the NUL counts as one to the NUL: the loop ends at both.
        (cursor.nextColumn, (c :: p).drop step)
      else (cursor.nextColumn, p)

/-- The loop of `Stamp`, for a number of rounds: `none` when it has not ended
by then.  Of two pointers into a text the lower one has more bytes behind
it. -/
def stampLoop (encoding : TiXmlEncoding) (tabsize : Int)
    (now : List Char) :
    Nat → TiXmlCursor → List Char → Option (TiXmlCursor × List Char)
  | 0, _, _ => none
  | rounds + 1, cursor, p =>
      if now.length < p.length then
        let next := stampStep encoding tabsize cursor p
        stampLoop encoding tabsize now rounds next.1 next.2
      else some (cursor, p)

/-- `TiXmlParsingData::Stamp`. -/
def TiXmlParsingData.stampTo (data : TiXmlParsingData) (now : List Char)
    (encoding : TiXmlEncoding) (rounds : Nat) : Option TiXmlParsingData :=
  if data.tabsize < 1 then some data
  else
    (stampLoop encoding data.tabsize now rounds data.cursor data.stamp).map
      fun moved => { data with cursor := moved.1, stamp := moved.2 }

/-! ## Where the loop ends -/

/-- No byte `0xEF` stands where less than two bytes follow it. -/
def MarksComplete (text : List Char) : Prop :=
  '\xef' ∉ text.drop (text.length - 2)

instance (text : List Char) : Decidable (MarksComplete text) :=
  inferInstanceAs (Decidable (¬ _))

theorem mem_drop_of_suffix {text short : List Char} {c : Char}
    (suffix : c :: short <:+ text) (isShort : short.length ≤ 1) :
    c ∈ text.drop (text.length - 2) := by
  obtain ⟨front, rfl⟩ := suffix
  rw [List.length_append, List.length_cons,
    List.drop_append_of_le_length (by omega)]
  exact List.mem_append_right _ (List.mem_cons_self ..)

theorem exists_suffix_of_mem_drop {text : List Char} {c : Char}
    (member : c ∈ text.drop (text.length - 2)) :
    ∃ short, c :: short <:+ text ∧ short.length ≤ 1 := by
  obtain ⟨front, short, split⟩ := List.append_of_mem member
  have length := congrArg List.length split
  rw [List.length_drop, List.length_append, List.length_cons] at length
  refine ⟨short, ?_, by omega⟩
  have inner : c :: short <:+ text.drop (text.length - 2) :=
    ⟨front, split.symm⟩
  exact inner.trans (List.drop_suffix _ _)

theorem skipByte_suffix (expected : Char) (p : List Char) :
    skipByte expected p <:+ p := by
  cases p with
  | nil => exact List.suffix_rfl
  | cons c p =>
      rw [skipByte]
      split
      · exact List.suffix_cons c p
      · exact List.suffix_rfl

theorem utf8ByteTable_pos (lead : Char) : 0 < utf8ByteTable lead := by
  unfold utf8ByteTable
  split
  · exact Nat.one_pos
  · split
    · exact Nat.two_pos
    · split
      · exact Nat.succ_pos 2
      · split
        · exact Nat.succ_pos 3
        · exact Nat.one_pos

theorem eatMark_suffix (cursor : TiXmlCursor) (c : Char) {p : List Char}
    (follow : 2 ≤ p.length) : (eatMark cursor c p).2 <:+ p := by
  cases p with
  | nil => cases follow
  | cons second p =>
      cases p with
      | nil =>
          rw [List.length_singleton] at follow
          omega
      | cons third rest =>
          have suffix : rest <:+ second :: third :: rest :=
            List.suffix_append [second, third] rest
          rw [eatMark]
          split
          · exact suffix
          · exact suffix

/-- A round moves the pointer on, and never out of the text. -/
theorem stampStep_suffix {encoding : TiXmlEncoding} (tabsize : Int)
    (cursor : TiXmlCursor) {c : Char} {p : List Char}
    (moves : encoding = .utf8 → c = '\xef' → 2 ≤ p.length) :
    (stampStep encoding tabsize cursor (c :: p)).2 <:+ p := by
  rw [stampStep]
  split
  · exact skipByte_suffix _ _
  split
  · exact skipByte_suffix _ _
  split
  · exact List.suffix_rfl
  split
  · rename_i isMark
    split
    · rename_i isUtf8
      exact eatMark_suffix cursor c (moves isUtf8 isMark)
    · exact List.suffix_rfl
  split
  · have positive := utf8ByteTable_pos c
    dsimp only
    rw [if_neg positive.ne']
    obtain ⟨step, isStep⟩ := Nat.exists_eq_succ_of_ne_zero positive.ne'
    rw [isStep, List.drop_succ_cons]
    exact List.drop_suffix _ _
  · exact List.suffix_rfl

/-- With a round for each byte, the loop ends in the text. -/
theorem stampLoop_ends {encoding : TiXmlEncoding} {text : List Char}
    (complete : encoding = .utf8 → MarksComplete text) (tabsize : Int)
    (now : List Char) :
    ∀ (rounds : Nat) (cursor : TiXmlCursor) (p : List Char),
      p <:+ text → p.length < rounds →
        ∃ moved, stampLoop encoding tabsize now rounds cursor p =
          some moved ∧ moved.2 <:+ text := by
  intro rounds
  induction rounds with
  | zero =>
      intro cursor p suffix enough
      omega
  | succ rounds inductionHypothesis =>
      intro cursor p suffix enough
      rw [stampLoop]
      split
      · rename_i before
        cases p with
        | nil => exact absurd before (Nat.not_lt_zero _)
        | cons c p =>
            have onward : (stampStep encoding tabsize cursor (c :: p)).2 <:+
                p := by
              refine stampStep_suffix tabsize cursor ?_
              intro isUtf8 isMark
              by_contra short
              have isShort : p.length ≤ 1 := by omega
              subst isMark
              exact complete isUtf8 (mem_drop_of_suffix suffix isShort)
            have shorter := onward.length_le
            rw [List.length_cons] at enough
            exact
              inductionHypothesis _ _
                ((onward.trans (List.suffix_cons c p)).trans suffix)
                (by omega)
      · exact ⟨(cursor, p), rfl, suffix⟩

/-- At a `0xEF` with less than two bytes behind it the loop of UTF-8 waits
for ever. -/
theorem stampLoop_waits {short now : List Char}
    (isShort : short.length ≤ 1) (before : now.length ≤ short.length)
    (tabsize : Int) (rounds : Nat) (cursor : TiXmlCursor) :
    stampLoop .utf8 tabsize now rounds cursor ('\xef' :: short) = none := by
  have stays :
      stampStep .utf8 tabsize cursor ('\xef' :: short) =
        (cursor, '\xef' :: short) := by
    cases short with
    | nil => rfl
    | cons second rest =>
        cases rest with
        | nil => rfl
        | cons third rest =>
            rw [List.length_cons, List.length_cons] at isShort
            omega
  induction rounds with
  | zero => rfl
  | succ rounds inductionHypothesis =>
      rw [stampLoop, if_pos (by rw [List.length_cons]; omega), stays]
      exact inductionHypothesis

/-- `Stamp` ends, wherever in a text it starts and is sent, exactly when the
encoding is not UTF-8 or each `0xEF` has two bytes behind it. -/
theorem stampTo_ends_iff (text : List Char) (encoding : TiXmlEncoding) :
    (∀ (data : TiXmlParsingData) (now : List Char),
      data.stamp <:+ text → now <:+ text →
        ∃ rounds moved, data.stampTo now encoding rounds = some moved ∧
          moved.stamp <:+ text) ↔
      (encoding = .utf8 → MarksComplete text) := by
  constructor
  · intro ends isUtf8 member
    obtain ⟨short, suffix, isShort⟩ := exists_suffix_of_mem_drop member
    obtain ⟨rounds, moved, isMoved, -⟩ :=
      ends { stamp := '\xef' :: short } [] suffix List.nil_suffix
    have waits : stampLoop .utf8 4 [] rounds {} ('\xef' :: short) = none :=
      stampLoop_waits isShort (Nat.zero_le _) 4 rounds {}
    simp only [TiXmlParsingData.stampTo, isUtf8, waits] at isMoved
    cases isMoved
  · intro complete data now suffix _
    refine ⟨data.stamp.length + 1, ?_⟩
    rw [TiXmlParsingData.stampTo]
    split
    · exact ⟨data, rfl, suffix⟩
    · obtain ⟨moved, isMoved, inside⟩ :=
        stampLoop_ends complete data.tabsize now _ data.cursor data.stamp
          suffix (Nat.lt_succ_self _)
      rw [isMoved]
      exact ⟨_, rfl, inside⟩

end LocationServer

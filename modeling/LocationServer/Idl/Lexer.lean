import LocationServer.Idl.Identifier

/-!
# The lexer of the interface definition language (`mylex.py`)

At each position PLY skips a blank, or tries the rules in the order of
`lexRules` and takes the first that matches there; a character that no rule
takes is a literal or it is reported and skipped.  Rules are compiled with
`re.VERBOSE`, which drops the line feed at the end of the comment rule.

The rules of the keywords match at the front of a word, so a word that goes on
behind a keyword falls into two tokens (`lexesWhole_iff`).
-/

namespace LocationServer

open Xml

inductive TokenType where
  | sequence
  | dictionary
  | struct
  | interface
  | identifier
  | number
  | literal (character : Char)
  deriving DecidableEq, Repr

structure Token where
  type : TokenType
  value : Text
  deriving DecidableEq, Repr

/-! ## The rules -/

/-- A rule: how many characters it takes from the front of a text, always at
least one, and the type of the token that its function returns, if any. -/
structure LexRule where
  type : Option TokenType
  count : Text → Option Nat
  count_pos : ∀ {text : Text} {taken : Nat}, count text = some taken → 0 < taken

/-- `t_COMMENTLINE`. -/
def commentLine : LexRule where
  type := none
  count text :=
    if "//".toList.isPrefixOf text then
      some (2 + ((text.drop 2).takeWhile (· ≠ '\n')).length)
    else none
  count_pos := by
    intro text taken matched
    split at matched
    · cases matched
      omega
    · cases matched

/-- A keyword is a word that the rule of the identifiers would take too. -/
structure Keyword where
  type : TokenType
  word : Text
  valid : isIdentifier word = true

/-- The rule of a keyword. -/
def Keyword.rule (keyword : Keyword) : LexRule where
  type := some keyword.type
  count text :=
    if keyword.word.isPrefixOf text then some keyword.word.length else none
  count_pos := by
    intro text taken matched
    split at matched
    · cases matched
      apply List.length_pos_iff.mpr
      intro empty
      exact absurd (empty ▸ keyword.valid) (by decide)
    · cases matched

/-- `t_SEQUENCE`, `t_DICTIONARY`, `t_STRUCT` and `t_INTERFACE`. -/
def keywords : List Keyword :=
  [{ type := .sequence, word := "sequence".toList, valid := by decide },
    { type := .dictionary, word := "dictionary".toList, valid := by decide },
    { type := .struct, word := "struct".toList, valid := by decide },
    { type := .interface, word := "interface".toList, valid := by decide }]

/-- The characters of an identifier at the front of a text. -/
def identifierCount : Text → Option Nat
  | [] => none
  | c :: rest =>
      if isIdentifierStart c then
        some (1 + (rest.takeWhile isIdentifierChar).length)
      else none

theorem identifierCount_pos {text : Text} {taken : Nat}
    (matched : identifierCount text = some taken) : 0 < taken := by
  cases text with
  | nil => cases matched
  | cons c rest =>
      rw [identifierCount] at matched
      split at matched
      · cases matched
        omega
      · cases matched

/-- `t_IDENTIFIER`. -/
def identifierRule : LexRule where
  type := some .identifier
  count := identifierCount
  count_pos := identifierCount_pos

/-- `t_newline`. -/
def newline : LexRule where
  type := none
  count text :=
    let lines := text.takeWhile (· = '\n')
    if lines = [] then none else some lines.length
  count_pos := by
    intro text taken matched
    simp only at matched
    split at matched
    · cases matched
    · rename_i notEmpty
      cases matched
      exact List.length_pos_iff.mpr notEmpty

/-- `t_NUMBER`.  The first alternatives of the suffix take one letter, so the
ones with two are never reached. -/
def numberRule : LexRule where
  type := some .number
  count text :=
    let digits := text.takeWhile Char.isDigit
    let suffixed :=
      (text.drop digits.length).head?.any fun c => "uUlL".toList.contains c
    if digits = [] then none
    else some (digits.length + if suffixed then 1 else 0)
  count_pos := by
    intro text taken matched
    simp only at matched
    split at matched
    · cases matched
    · rename_i notEmpty
      have := List.length_pos_iff.mpr notEmpty
      cases matched
      omega

/-- The order in which PLY tries the rules: the functions as they are defined,
then the others. -/
def lexRules : List LexRule :=
  commentLine :: keywords.map Keyword.rule ++
    [identifierRule, newline, numberRule]

def literals : Text :=
  ['{', '}', ';', '(', ')', '<', '>', ',']

/-! ## The lexer -/

/-- The first rule that matches at the front of a text, with the number of
characters that it takes. -/
def firstMatch (text : Text) : Option (LexRule × Nat) :=
  lexRules.findSome? fun rule => (rule.count text).map (rule, ·)

/-- One step of the lexer: the token that it makes, if any, and the text
behind it; `none` at the end of the text. -/
def lexStep : Text → Option (Option Token × Text)
  | [] => none
  | c :: rest =>
      if c = ' ' ∨ c = '\t' then some (none, rest)
      else
        match firstMatch (c :: rest) with
        | some (rule, taken) =>
            some
              (rule.type.map fun type =>
                { type, value := (c :: rest).take taken },
                (c :: rest).drop taken)
        | none =>
            if c ∈ literals then
              some (some { type := .literal c, value := [c] }, rest)
            else some (none, rest)

theorem firstMatch_pos {text : Text} {rule : LexRule} {taken : Nat}
    (found : firstMatch text = some (rule, taken)) : 0 < taken := by
  obtain ⟨other, -, matched⟩ := List.exists_of_findSome?_eq_some found
  obtain ⟨count, counted, same⟩ := Option.map_eq_some_iff.mp matched
  cases same
  exact rule.count_pos counted

theorem lexStep_length {text after : Text} {token : Option Token}
    (step : lexStep text = some (token, after)) :
    after.length < text.length := by
  cases text with
  | nil => cases step
  | cons c rest =>
      rw [lexStep] at step
      split at step
      · cases step
        simp
      · split at step
        · rename_i rule taken found
          have := firstMatch_pos found
          cases step
          simp only [List.length_drop, List.length_cons]
          omega
        · split at step <;> cases step <;> simp

/-- The steps of the lexer, at most as many as there is fuel. -/
def lexLoop : Nat → Text → List Token
  | 0, _ => []
  | fuel + 1, text =>
      match lexStep text with
      | none => []
      | some (token, after) => token.toList ++ lexLoop fuel after

/-- All tokens of a text: each step takes at least one character. -/
def tokens (text : Text) : List Token :=
  lexLoop text.length text

theorem lexLoop_of_length_le (fuel : Nat) :
    ∀ other text, text.length ≤ fuel → text.length ≤ other →
      lexLoop fuel text = lexLoop other text := by
  induction fuel with
  | zero =>
      intro other text within _
      rw [List.length_eq_zero_iff.mp (Nat.le_zero.mp within)]
      cases other with
      | zero => rfl
      | succ other => rfl
  | succ fuel inductionHypothesis =>
      intro other text within otherWithin
      cases other with
      | zero =>
          rw [List.length_eq_zero_iff.mp (Nat.le_zero.mp otherWithin)]
          rfl
      | succ other =>
          simp only [lexLoop]
          cases step : lexStep text with
          | none => rfl
          | some result =>
              have shorter := lexStep_length step
              simp only
              rw [inductionHypothesis other result.2 (by omega) (by omega)]

theorem tokens_of_step {text after : Text} {token : Option Token}
    (step : lexStep text = some (token, after)) :
    tokens text = token.toList ++ tokens after := by
  have shorter := lexStep_length step
  obtain ⟨fuel, enough⟩ := Nat.exists_eq_succ_of_ne_zero
    (Nat.ne_zero_of_lt shorter)
  rw [tokens, tokens, enough, lexLoop, step]
  simp only
  rw [lexLoop_of_length_le fuel after.length after (by omega) le_rfl]

/-! ## Whole words -/

/-- The token that a whole word is to become. -/
def wordType (word : Text) : TokenType :=
  ((keywords.find? fun keyword => keyword.word = word).map
    Keyword.type).getD .identifier

/-- The word becomes one token and the lexer goes on behind it. -/
def LexesWhole (word rest : Text) : Prop :=
  tokens (word ++ rest) =
    { type := wordType word, value := word } :: tokens rest

theorem keyword_of_leads :
    ∀ left ∈ keywords, ∀ right ∈ keywords,
      left.word <+: right.word → left.word = right.word := by
  decide

theorem wordType_keyword :
    ∀ keyword ∈ keywords, wordType keyword.word = keyword.type := by
  decide

theorem wordType_of_none {word : Text}
    (noneLeads : ∀ keyword ∈ keywords, ¬ keyword.word <+: word) :
    wordType word = .identifier := by
  have noneIs :
      (keywords.find? fun keyword => keyword.word = word) = none := by
    apply List.find?_eq_none.mpr
    intro keyword isKeyword same
    rw [decide_eq_true_eq] at same
    exact noneLeads keyword isKeyword (same ▸ List.prefix_rfl)
  rw [wordType, noneIs]
  rfl

section Word

variable {word rest : Text}

/-- A prefix that could be an identifier ends within the word. -/
theorem prefix_append_iff
    (stops : ∀ c ∈ rest.head?, isIdentifierChar c = false)
    {keyword : Text} (identifier : isIdentifier keyword = true) :
    keyword <+: word ++ rest ↔ keyword <+: word := by
  constructor
  · intro leads
    rcases Nat.le_total keyword.length word.length with within | beyond
    · exact
        List.prefix_of_prefix_length_le leads (List.prefix_append _ _) within
    · obtain ⟨more, isKeyword⟩ :=
        List.prefix_of_prefix_length_le (List.prefix_append word rest) leads
          beyond
      rw [← isKeyword, List.prefix_append_right_inj] at leads
      cases more with
      | nil => simp [← isKeyword]
      | cons c more =>
          cases rest with
          | nil => cases List.prefix_nil.mp leads
          | cons stop rest =>
              obtain ⟨rfl, -⟩ := List.cons_prefix_cons.mp leads
              have goesOn :=
                isIdentifierChar_of_mem identifier (c := c) (by
                  simp [← isKeyword])
              rw [stops c rfl] at goesOn
              cases goesOn
  · intro leads
    exact leads.trans (List.prefix_append _ _)

theorem count_identifierRule (identifier : isIdentifier word = true)
    (stops : ∀ c ∈ rest.head?, isIdentifierChar c = false) :
    identifierRule.count (word ++ rest) = some word.length := by
  cases word with
  | nil => cases identifier
  | cons c word =>
      rw [isIdentifier, Bool.and_eq_true] at identifier
      obtain ⟨starts, continues⟩ := identifier
      have stopped : rest.takeWhile isIdentifierChar = [] := by
        cases rest with
        | nil => rfl
        | cons stop rest =>
            rw [List.takeWhile_cons_of_neg (by simp [stops stop rfl])]
      simp only [identifierRule, identifierCount, List.cons_append, starts,
        if_true, List.length_cons]
      rw [List.takeWhile_append_of_pos (List.all_eq_true.mp continues),
        stopped, List.append_nil, Nat.add_comm]

theorem count_commentLine (identifier : isIdentifier word = true) :
    commentLine.count (word ++ rest) = none := by
  cases word with
  | nil => cases identifier
  | cons c word =>
      have notSlash : c ≠ '/' :=
        ne_of_isIdentifierChar
          (isIdentifierChar_of_mem identifier List.mem_cons_self) (by decide)
      exact if_neg (by simp [notSlash.symm])

theorem count_keyword (keyword : Keyword)
    (stops : ∀ c ∈ rest.head?, isIdentifierChar c = false) :
    keyword.rule.count (word ++ rest) =
      if keyword.word.isPrefixOf word then some keyword.word.length
      else none := by
  have leads : keyword.word <+: word ++ rest ↔ keyword.word <+: word :=
    prefix_append_iff stops keyword.valid
  rw [← List.isPrefixOf_iff_prefix, ← List.isPrefixOf_iff_prefix,
    ← Bool.eq_iff_iff] at leads
  rw [← leads]
  rfl

/-- Among the rules of keywords the first keyword that leads the word
matches. -/
theorem findSome_keywords (keywords : List Keyword)
    (stops : ∀ c ∈ rest.head?, isIdentifierChar c = false) :
    ((keywords.map Keyword.rule).findSome? fun rule =>
        (rule.count (word ++ rest)).map (rule, ·)) =
      (keywords.find? fun keyword => keyword.word.isPrefixOf word).map
        fun keyword => (keyword.rule, keyword.word.length) := by
  induction keywords with
  | nil =>
      rfl
  | cons keyword keywords inductionHypothesis =>
      rw [List.map_cons, List.findSome?_cons, List.find?_cons,
        inductionHypothesis, count_keyword keyword stops]
      cases keyword.word.isPrefixOf word with
      | true => rfl
      | false => rfl

theorem firstMatch_word (identifier : isIdentifier word = true)
    (stops : ∀ c ∈ rest.head?, isIdentifierChar c = false) :
    firstMatch (word ++ rest) =
      match keywords.find? fun keyword => keyword.word.isPrefixOf word with
      | some keyword => some (keyword.rule, keyword.word.length)
      | none => some (identifierRule, word.length) := by
  rw [firstMatch, lexRules, List.cons_append, List.findSome?_cons,
    count_commentLine identifier, List.findSome?_append,
    findSome_keywords keywords stops]
  cases keywords.find? fun keyword => keyword.word.isPrefixOf word with
  | some keyword => rfl
  | none =>
      simp only [Option.map_none, Option.none_or, List.findSome?_cons,
        count_identifierRule identifier stops, Option.map_some]

/-- The lexer at the front of a word takes the keyword that leads it, or the
whole word. -/
theorem lexStep_word (identifier : isIdentifier word = true)
    (stops : ∀ c ∈ rest.head?, isIdentifierChar c = false) :
    lexStep (word ++ rest) =
      match keywords.find? fun keyword => keyword.word.isPrefixOf word with
      | some keyword =>
          some
            (some { type := keyword.type, value := keyword.word },
              (word ++ rest).drop keyword.word.length)
      | none => some (some { type := .identifier, value := word }, rest) := by
  have found := firstMatch_word identifier stops
  cases word with
  | nil => cases identifier
  | cons c word =>
      have isChar :=
        isIdentifierChar_of_mem identifier (List.mem_cons_self (a := c))
      have notBlank : ¬ (c = ' ' ∨ c = '\t') := by
        rintro (rfl | rfl) <;> exact absurd isChar (by decide)
      rw [List.cons_append] at found ⊢
      rw [lexStep, if_neg notBlank, found]
      cases isKeyword :
          keywords.find? fun keyword =>
            keyword.word.isPrefixOf (c :: word) with
      | none => simp [identifierRule]
      | some keyword =>
          have leads := List.find?_some isKeyword
          rw [List.isPrefixOf_iff_prefix] at leads
          have within := leads.length_le
          rw [List.prefix_iff_eq_take] at leads
          simp only [Keyword.rule, Option.map_some, Option.some.injEq,
            Prod.mk.injEq, Token.mk.injEq, true_and, and_true]
          rw [← List.cons_append, List.take_append_of_le_length within,
            ← leads]

/-- A word becomes one token exactly when no keyword leads it, unless it is
that keyword. -/
theorem lexesWhole_iff (identifier : isIdentifier word = true)
    (stops : ∀ c ∈ rest.head?, isIdentifierChar c = false) :
    LexesWhole word rest ↔
      ∀ keyword ∈ keywords, keyword.word <+: word →
        keyword.word = word := by
  have step := lexStep_word identifier stops
  cases isFirst :
      keywords.find? fun keyword => keyword.word.isPrefixOf word with
  | none =>
      rw [isFirst] at step
      have noneLeads :
          ∀ keyword ∈ keywords, ¬ keyword.word <+: word := by
        intro keyword isKeyword leads
        have notFirst := List.find?_eq_none.mp isFirst keyword isKeyword
        exact notFirst (List.isPrefixOf_iff_prefix.mpr leads)
      rw [LexesWhole, tokens_of_step step, wordType_of_none noneLeads]
      constructor
      · intro _ keyword isKeyword leads
        exact absurd leads (noneLeads keyword isKeyword)
      · intro _
        rfl
  | some keyword =>
      rw [isFirst] at step
      have isKeyword := List.mem_of_find?_eq_some isFirst
      have leads := List.find?_some isFirst
      rw [List.isPrefixOf_iff_prefix] at leads
      rw [LexesWhole, tokens_of_step step]
      constructor
      · intro whole other isOther otherLeads
        have sameWord : keyword.word = word :=
          congrArg Token.value (List.cons.inj whole).1
        rw [← sameWord] at otherLeads
        rw [keyword_of_leads other isOther keyword isKeyword otherLeads,
          sameWord]
      · intro onlyWhole
        have sameWord := onlyWhole keyword isKeyword leads
        rw [← sameWord, wordType_keyword keyword isKeyword,
          List.drop_left]
        rfl

theorem lexesWhole_sample :
    LexesWhole "interfac_t".toList " x;".toList := by
  have stops : ∀ c ∈ " x;".toList.head?, isIdentifierChar c = false := by
    intro c isHead
    obtain rfl : ' ' = c := Option.some.inj isHead
    decide
  exact (lexesWhole_iff (by decide) stops).mpr (by decide)

/-- The word that goes on behind a keyword falls into two tokens. -/
theorem structure_falls_apart :
    isIdentifier "structure".toList = true ∧
      tokens "structure;".toList =
        [{ type := .struct, value := "struct".toList },
          { type := .identifier, value := "ure".toList },
          { type := .literal ';', value := ";".toList }] ∧
      ¬ LexesWhole "structure".toList ";".toList := by
  have split :
      tokens "structure;".toList =
        [{ type := .struct, value := "struct".toList },
          { type := .identifier, value := "ure".toList },
          { type := .literal ';', value := ";".toList }] := by
    decide
  refine ⟨by decide, split, ?_⟩
  intro whole
  have sameToken := (List.cons.inj (split.symm.trans whole)).1
  exact absurd sameToken (by decide)

end Word

end LocationServer

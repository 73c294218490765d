import LocationServer.Idl.Parser
import Mathlib.Tactic.IntervalCases

/-!
# What the parser reads

The tables of `parser.out` are valid: no reduction finds a stack that it does
not fit, no action finds values that it does not know, and the loop ends within
four rounds for each token and five more.  What the parser accepts is the yield
of a tree of the grammar without empty definitions.
-/

namespace LocationServer

open ShiftReduce Xml

/-! ## The tables -/

/-- States that wait behind a token weigh more than those behind what the token
is reduced to; a state that an empty production is reduced in has a bonus. -/
def slrPotential : Potential where
  perToken := 4
  weight state :=
    if [5, 12, 14, 17, 18, 22].contains state then 3
    else if [4, 15, 26, 33, 34, 37, 38, 49].contains state then 2
    else 1
  bonus state :=
    if state = 0 then 4 else if state = 46 ∨ state = 51 then 2 else 0

theorem slrParser_valid : slrParser.Valid slrPotential .start where
  fresh := by decide +kernel
  weighed := by decide +kernel
  entries := by decide +kernel

/-! ## The tokens of a text -/

/-- The text of a token is one that its rule takes. -/
def Token.Lexed (token : Token) : Prop :=
  match token.type with
  | .sequence => token.value = "sequence".toList
  | .dictionary => token.value = "dictionary".toList
  | .struct => token.value = "struct".toList
  | .interface => token.value = "interface".toList
  | .identifier => isIdentifier token.value = true
  | .number => True
  | .literal c => token.value = [c]

theorem isIdentifier_take {text : Text} {taken : Nat}
    (matched : identifierCount text = some taken) :
    isIdentifier (text.take taken) = true := by
  cases text with
  | nil => cases matched
  | cons c rest =>
      rw [identifierCount] at matched
      split at matched
      · rename_i starts
        obtain rfl := Option.some.inj matched
        have word :
            rest.take (rest.takeWhile isIdentifierChar).length =
              rest.takeWhile isIdentifierChar :=
          (List.prefix_iff_eq_take.mp (List.takeWhile_prefix _)).symm
        rw [Nat.add_comm, List.take_succ_cons, word, isIdentifier, starts,
          Bool.true_and]
        exact List.all_takeWhile
      · cases matched

theorem take_of_keyword {keyword : Keyword} {text : Text} {taken : Nat}
    (counted : keyword.rule.count text = some taken) :
    text.take taken = keyword.word := by
  simp only [Keyword.rule, Option.ite_none_right_eq_some,
    Option.some.injEq] at counted
  obtain ⟨isPrefix, rfl⟩ := counted
  rw [List.isPrefixOf_iff_prefix, List.prefix_iff_eq_take] at isPrefix
  exact isPrefix.symm

theorem lexed_of_rule {rule : LexRule} (isRule : rule ∈ lexRules)
    {text : Text} {taken : Nat} (counted : rule.count text = some taken)
    {type : TokenType} (isType : rule.type = some type) :
    Token.Lexed { type, value := text.take taken } := by
  rw [lexRules, List.mem_append, List.mem_cons, List.mem_map] at isRule
  rcases isRule with (rfl | ⟨keyword, isKeyword, rfl⟩) | isRule
  · cases isType
  · rw [take_of_keyword counted]
    obtain rfl := Option.some.inj isType
    simp only [keywords, List.mem_cons, List.not_mem_nil,
      or_false] at isKeyword
    rcases isKeyword with rfl | rfl | rfl | rfl <;> rfl
  · simp only [List.mem_cons, List.not_mem_nil, or_false] at isRule
    rcases isRule with rfl | rfl | rfl
    · obtain rfl := Option.some.inj isType
      exact isIdentifier_take counted
    · cases isType
    · obtain rfl := Option.some.inj isType
      exact trivial

theorem lexed_of_step {text after : Text} {token : Token}
    (step : lexStep text = some (some token, after)) : token.Lexed := by
  cases text with
  | nil => cases step
  | cons c rest =>
      rw [lexStep] at step
      split at step
      · cases step
      · split at step
        · rename_i rule taken found
          obtain ⟨other, isRule, matched⟩ :=
            List.exists_of_findSome?_eq_some found
          obtain ⟨count, counted, same⟩ := Option.map_eq_some_iff.mp matched
          obtain ⟨rfl, rfl⟩ := Prod.mk.inj same
          obtain ⟨isToken, -⟩ := Prod.mk.inj (Option.some.inj step)
          obtain ⟨type, isType, rfl⟩ := Option.map_eq_some_iff.mp isToken
          exact lexed_of_rule isRule counted isType
        · split at step
          · obtain ⟨isToken, -⟩ := Prod.mk.inj (Option.some.inj step)
            obtain rfl := Option.some.inj isToken
            rfl
          · cases step

theorem lexed_of_mem_tokens {text : Text} {token : Token}
    (member : token ∈ tokens text) : token.Lexed := by
  have each :
      ∀ fuel text, ∀ token ∈ lexLoop fuel text, token.Lexed := by
    intro fuel
    induction fuel with
    | zero =>
        intro text token member
        cases member
    | succ fuel inductionHypothesis =>
        intro text token member
        rw [lexLoop] at member
        split at member
        · cases member
        · rename_i made after step
          rcases List.mem_append.mp member with here | later
          · rw [Option.mem_toList.mp here] at step
            exact lexed_of_step step
          · exact inductionHypothesis after token later
  exact each text.length text token member

theorem Token.Lexed.identifier {token : Token} (lexed : token.Lexed)
    (isType : token.type = .identifier) :
    ∃ id : Identifier, token = id.token := by
  obtain ⟨type, value⟩ := token
  subst isType
  exact ⟨⟨value, lexed⟩, rfl⟩

theorem Token.Lexed.literal {token : Token} (lexed : token.Lexed) {c : Char}
    (isType : token.type = .literal c) :
    token = LocationServer.literal c := by
  obtain ⟨type, value⟩ := token
  subst isType
  obtain rfl : value = [c] := lexed
  rfl

/-! ## What symbols stand for -/

/-- A tree without an empty definition. -/
def Definations.Filled : Definations → Prop
  | .one defination => defination ≠ .empty
  | .more defination rest => defination ≠ .empty ∧ Filled rest

def Definations.tokens (tree : Definations) : List Token :=
  tree.yield Defination.yield

/-- The members of a structure with their semicolons. -/
def datamembersTokens (tree : Productions TypeIdTree) : List Token :=
  tree.yield fun member => member.yield ++ [literal ';']

/-- A definition that its semicolon has still to follow. -/
def MeansUnended (value : SymbolValue) (part : List Token) : Prop :=
  ∃ (tree : Defination) (d : _),
    tree ≠ .empty ∧ value = .defination d ∧
      part ++ [literal ';'] = tree.yield

/-- The value of a symbol is one that actions know, and its tokens are the
yield of a tree. -/
def SymbolMeans :
    GrammarSymbol TokenType Nonterminal → SymbolValue → List Token → Prop
  | .terminal type, value, part => ∃ token : Token,
      token.Lexed ∧ token.type = type ∧ value = .token token.value ∧
        part = [token]
  | .nonterminal .accepting, _, _ => False
  | .nonterminal .start, value, part => ∃ (tree : Definations) (unit : _),
      tree.Filled ∧ value = .unit unit ∧ part = tree.tokens
  | .nonterminal .definations, value, part =>
      ∃ (tree : Definations) (defs : _),
        tree.Filled ∧ value = .definations defs ∧ part = tree.tokens
  | .nonterminal .defination, value, part =>
      ∃ (tree : Defination) (d : _),
        tree ≠ .empty ∧ value = .defination d ∧ part = tree.yield
  | .nonterminal .structDef, value, part => MeansUnended value part
  | .nonterminal .interfaceDef, value, part => MeansUnended value part
  | .nonterminal .sequenceDef, value, part => MeansUnended value part
  | .nonterminal .dictionaryDef, value, part => MeansUnended value part
  | .nonterminal .datamembers, value, part =>
      ∃ (tree : Productions TypeIdTree) (list : _),
        value = .typeIds list ∧ part = datamembersTokens tree
  | .nonterminal .datamember, value, part =>
      ∃ (tree : TypeIdTree) (member : _),
        value = .typeId member ∧ part = tree.yield ++ [literal ';']
  | .nonterminal .operatemembers, value, part =>
      ∃ (tree : Productions OperateMemberTree) (opms : _),
        value = .operatemembers opms ∧
          part = tree.yield OperateMemberTree.yield
  | .nonterminal .operatemember, value, part =>
      ∃ (tree : OperateMemberTree) (opm : _),
        value = .operatemember opm ∧ part = tree.yield
  | .nonterminal .operateparams, value, part =>
      ∃ (tree : OperateParams) (list : _),
        value = .typeIds list ∧ part = tree.yield
  | .nonterminal .typeId, value, part =>
      ∃ (tree : TypeIdTree) (member : _),
        value = .typeId member ∧ part = tree.yield
  | .nonterminal .callreturn, value, part =>
      ∃ (id : Identifier) (type : _),
        value = .type type ∧ part = [id.token]
  | .nonterminal .type, value, part =>
      ∃ (id : Identifier) (type : _),
        value = .type type ∧ part = [id.token]

/-! ## The terminals -/

theorem means_identifier_iff {value : SymbolValue} {part : List Token} :
    SymbolMeans (.terminal .identifier) value part ↔
      ∃ id : Identifier, value = .token id.text ∧ part = [id.token] := by
  constructor
  · rintro ⟨token, lexed, isType, rfl, rfl⟩
    obtain ⟨id, rfl⟩ := lexed.identifier isType
    exact ⟨id, rfl, rfl⟩
  · rintro ⟨id, rfl, rfl⟩
    exact ⟨id.token, id.valid, rfl, rfl, rfl⟩

theorem means_literal_iff {c : Char} {value : SymbolValue}
    {part : List Token} :
    SymbolMeans (.terminal (.literal c)) value part ↔
      value = .token [c] ∧ part = [literal c] := by
  constructor
  · rintro ⟨token, lexed, isType, rfl, rfl⟩
    obtain rfl := lexed.literal isType
    exact ⟨rfl, rfl⟩
  · rintro ⟨rfl, rfl⟩
    exact ⟨literal c, rfl, rfl, rfl, rfl⟩

/-! ## The actions -/

theorem value_of_withTypes {α : Type} {types_def : TypesDef}
    {value : α → SymbolValue} {computation : Except ParseFault α}
    {result : SymbolValue × TypesDef}
    (done : withTypes types_def value computation = .ok result) :
    ∃ inner, result.1 = value inner := by
  cases computation with
  | error fault => cases done
  | ok inner =>
      obtain rfl := Except.ok.inj done
      exact ⟨inner, rfl⟩

theorem value_of_asDefination
    {computation : Except ParseFault (TypeDef × TypesDef)}
    {result : SymbolValue × TypesDef}
    (done : asDefination computation = .ok result) :
    ∃ d, result.1 = .defination d := by
  cases computation with
  | error fault => cases done
  | ok inner =>
      obtain rfl := Except.ok.inj done
      exact ⟨inner.1, rfl⟩

/-- The actions know the values on the stack. -/
def RuleKeeps (rule : Nat) : Prop :=
  ∀ production, slrProductions[rule]? = some production →
    ∀ types_def values part,
      MeansAll SymbolMeans production.right values part →
        ∃ computation, slrAction types_def rule values = some computation ∧
          ∀ result, computation = .ok result →
            SymbolMeans (.nonterminal production.left) result.1 part

/-- Rules 4 to 7. -/
theorem ruleKeeps_defination {rule : Nat} {left : Nonterminal}
    (isRule :
      slrProductions[rule]? =
        some
          { left := .defination
            right := [.nonterminal left, .terminal (.literal ';')] })
    (isLeft :
      ∀ value part, SymbolMeans (.nonterminal left) value part →
        MeansUnended value part)
    (acts :
      ∀ types_def d value,
        slrAction types_def rule [.defination d, .token value] =
          some (.ok (.defination d, types_def))) :
    RuleKeeps rule := by
  intro production same types_def values part means
  obtain rfl := Option.some.inj (isRule.symm.trans same)
  simp only [meansAll_cons_iff, meansAll_nil_iff, means_literal_iff] at means
  obtain
    ⟨_, _, _, _, rfl, rfl, meansDef, _, _, _, _, rfl, rfl, ⟨rfl, rfl⟩, rfl,
      rfl⟩ := means
  obtain ⟨tree, d, filled, rfl, yields⟩ := isLeft _ _ meansDef
  refine ⟨_, acts types_def d _, ?_⟩
  intro result done
  obtain rfl := Except.ok.inj done
  exact ⟨tree, d, filled, rfl, by rw [List.append_nil]; exact yields⟩

theorem ruleKeeps_start : RuleKeeps 1 := by
  intro production same types_def values part means
  obtain rfl := Option.some.inj same
  simp only [meansAll_cons_iff, meansAll_nil_iff] at means
  obtain
    ⟨_, _, _, _, rfl, rfl, ⟨tree, defs, filled, rfl, rfl⟩, rfl, rfl⟩ := means
  refine ⟨_, rfl, ?_⟩
  intro result done
  obtain rfl := Except.ok.inj done
  exact ⟨tree, _, filled, rfl, List.append_nil _⟩

theorem ruleKeeps_definations_one : RuleKeeps 2 := by
  intro production same types_def values part means
  obtain rfl := Option.some.inj same
  simp only [meansAll_cons_iff, meansAll_nil_iff] at means
  obtain
    ⟨_, _, _, _, rfl, rfl, ⟨tree, d, filled, rfl, rfl⟩, rfl, rfl⟩ := means
  refine ⟨_, rfl, ?_⟩
  intro result done
  obtain rfl := Except.ok.inj done
  exact ⟨.one tree, _, filled, rfl, List.append_nil _⟩

theorem ruleKeeps_definations_more : RuleKeeps 3 := by
  intro production same types_def values part means
  obtain rfl := Option.some.inj same
  simp only [meansAll_cons_iff, meansAll_nil_iff] at means
  obtain
    ⟨_, _, _, _, rfl, rfl, ⟨tree, d, filled, rfl, rfl⟩, _, _, _, _, rfl, rfl,
      ⟨rest, defs, filledRest, rfl, rfl⟩, rfl, rfl⟩ := means
  refine ⟨_, rfl, ?_⟩
  intro result done
  obtain rfl := Except.ok.inj done
  exact
    ⟨.more tree rest, _, ⟨filled, filledRest⟩, rfl,
      congrArg _ (List.append_nil _)⟩

theorem ruleKeeps_empty : RuleKeeps 8 := by
  intro production same types_def values part means
  obtain rfl := Option.some.inj same
  obtain ⟨rfl, rfl⟩ := (meansAll_nil_iff _).mp means
  refine ⟨_, rfl, ?_⟩
  intro result done
  cases done

theorem ruleKeeps_sequenceDef : RuleKeeps 9 := by
  intro production same types_def values part means
  obtain rfl := Option.some.inj same
  simp only [meansAll_cons_iff, meansAll_nil_iff, means_literal_iff,
    means_identifier_iff] at means
  obtain
    ⟨_, _, _, _, rfl, rfl, ⟨⟨type, word⟩, lexed, isType, rfl, rfl⟩,
      _, _, _, _, rfl, rfl, ⟨rfl, rfl⟩,
      _, _, _, _, rfl, rfl, ⟨item, itemType, rfl, rfl⟩,
      _, _, _, _, rfl, rfl, ⟨rfl, rfl⟩,
      _, _, _, _, rfl, rfl, ⟨name, rfl, rfl⟩, rfl, rfl⟩ := means
  obtain rfl : type = .sequence := isType
  obtain rfl : word = "sequence".toList := lexed
  refine ⟨_, rfl, ?_⟩
  intro result done
  obtain ⟨d, isValue⟩ := value_of_asDefination done
  exact ⟨.sequence item name, d, Defination.noConfusion, isValue, rfl⟩

theorem ruleKeeps_dictionaryDef : RuleKeeps 10 := by
  intro production same types_def values part means
  obtain rfl := Option.some.inj same
  simp only [meansAll_cons_iff, meansAll_nil_iff, means_literal_iff,
    means_identifier_iff] at means
  obtain
    ⟨_, _, _, _, rfl, rfl, ⟨⟨type, word⟩, lexed, isType, rfl, rfl⟩,
      _, _, _, _, rfl, rfl, ⟨rfl, rfl⟩,
      _, _, _, _, rfl, rfl, ⟨first, firstType, rfl, rfl⟩,
      _, _, _, _, rfl, rfl, ⟨rfl, rfl⟩,
      _, _, _, _, rfl, rfl, ⟨second, secondType, rfl, rfl⟩,
      _, _, _, _, rfl, rfl, ⟨rfl, rfl⟩,
      _, _, _, _, rfl, rfl, ⟨name, rfl, rfl⟩, rfl, rfl⟩ := means
  obtain rfl : type = .dictionary := isType
  obtain rfl : word = "dictionary".toList := lexed
  refine ⟨_, rfl, ?_⟩
  intro result done
  obtain ⟨d, isValue⟩ := value_of_asDefination done
  exact
    ⟨.dictionary first second name, d, Defination.noConfusion, isValue, rfl⟩

theorem ruleKeeps_interfaceDef : RuleKeeps 11 := by
  intro production same types_def values part means
  obtain rfl := Option.some.inj same
  simp only [meansAll_cons_iff, meansAll_nil_iff, means_literal_iff,
    means_identifier_iff] at means
  obtain
    ⟨_, _, _, _, rfl, rfl, ⟨⟨type, word⟩, lexed, isType, rfl, rfl⟩,
      _, _, _, _, rfl, rfl, ⟨name, rfl, rfl⟩,
      _, _, _, _, rfl, rfl, ⟨rfl, rfl⟩,
      _, _, _, _, rfl, rfl, ⟨members, opms, rfl, rfl⟩,
      _, _, _, _, rfl, rfl, ⟨rfl, rfl⟩, rfl, rfl⟩ := means
  obtain rfl : type = .interface := isType
  obtain rfl : word = "interface".toList := lexed
  refine ⟨_, rfl, ?_⟩
  intro result done
  obtain ⟨d, isValue⟩ := value_of_asDefination done
  refine
    ⟨.interface name members, d, Defination.noConfusion, isValue, ?_⟩
  simp [Defination.yield]

theorem ruleKeeps_structDef : RuleKeeps 19 := by
  intro production same types_def values part means
  obtain rfl := Option.some.inj same
  simp only [meansAll_cons_iff, meansAll_nil_iff, means_literal_iff,
    means_identifier_iff] at means
  obtain
    ⟨_, _, _, _, rfl, rfl, ⟨⟨type, word⟩, lexed, isType, rfl, rfl⟩,
      _, _, _, _, rfl, rfl, ⟨name, rfl, rfl⟩,
      _, _, _, _, rfl, rfl, ⟨rfl, rfl⟩,
      _, _, _, _, rfl, rfl, ⟨members, list, rfl, rfl⟩,
      _, _, _, _, rfl, rfl, ⟨rfl, rfl⟩, rfl, rfl⟩ := means
  obtain rfl : type = .struct := isType
  obtain rfl : word = "struct".toList := lexed
  refine ⟨_, rfl, ?_⟩
  intro result done
  obtain ⟨d, isValue⟩ := value_of_asDefination done
  refine ⟨.struct name members, d, Defination.noConfusion, isValue, ?_⟩
  simp [Defination.yield, datamembersTokens]

theorem ruleKeeps_operatemembers_one : RuleKeeps 12 := by
  intro production same types_def values part means
  obtain rfl := Option.some.inj same
  simp only [meansAll_cons_iff, meansAll_nil_iff] at means
  obtain
    ⟨_, _, _, _, rfl, rfl, ⟨tree, opm, rfl, rfl⟩, rfl, rfl⟩ := means
  refine ⟨_, rfl, ?_⟩
  intro result done
  obtain rfl := Except.ok.inj done
  exact ⟨.one tree, _, rfl, List.append_nil _⟩

theorem ruleKeeps_operatemembers_more : RuleKeeps 13 := by
  intro production same types_def values part means
  obtain rfl := Option.some.inj same
  simp only [meansAll_cons_iff, meansAll_nil_iff] at means
  obtain
    ⟨_, _, _, _, rfl, rfl, ⟨tree, opm, rfl, rfl⟩, _, _, _, _, rfl, rfl,
      ⟨rest, opms, rfl, rfl⟩, rfl, rfl⟩ := means
  refine ⟨_, rfl, ?_⟩
  intro result done
  obtain rfl := Except.ok.inj done
  exact ⟨.more tree rest, _, rfl, congrArg _ (List.append_nil _)⟩

theorem ruleKeeps_operatemember : RuleKeeps 14 := by
  intro production same types_def values part means
  obtain rfl := Option.some.inj same
  simp only [meansAll_cons_iff, meansAll_nil_iff, means_literal_iff,
    means_identifier_iff] at means
  obtain
    ⟨_, _, _, _, rfl, rfl, ⟨callreturn, type, rfl, rfl⟩,
      _, _, _, _, rfl, rfl, ⟨name, rfl, rfl⟩,
      _, _, _, _, rfl, rfl, ⟨rfl, rfl⟩,
      _, _, _, _, rfl, rfl, ⟨params, list, rfl, rfl⟩,
      _, _, _, _, rfl, rfl, ⟨rfl, rfl⟩,
      _, _, _, _, rfl, rfl, ⟨rfl, rfl⟩, rfl, rfl⟩ := means
  refine ⟨_, rfl, ?_⟩
  intro result done
  obtain rfl := Except.ok.inj done
  refine ⟨⟨callreturn, name, params⟩, _, rfl, ?_⟩
  simp [OperateMemberTree.yield]

theorem ruleKeeps_operateparams_one : RuleKeeps 15 := by
  intro production same types_def values part means
  obtain rfl := Option.some.inj same
  simp only [meansAll_cons_iff, meansAll_nil_iff] at means
  obtain
    ⟨_, _, _, _, rfl, rfl, ⟨tree, member, rfl, rfl⟩, rfl, rfl⟩ := means
  refine ⟨_, rfl, ?_⟩
  intro result done
  obtain rfl := Except.ok.inj done
  exact ⟨.one tree, _, rfl, List.append_nil _⟩

theorem ruleKeeps_operateparams_empty : RuleKeeps 16 := by
  intro production same types_def values part means
  obtain rfl := Option.some.inj same
  obtain ⟨rfl, rfl⟩ := (meansAll_nil_iff _).mp means
  refine ⟨_, rfl, ?_⟩
  intro result done
  obtain rfl := Except.ok.inj done
  exact ⟨.empty, _, rfl, rfl⟩

theorem ruleKeeps_operateparams_more : RuleKeeps 17 := by
  intro production same types_def values part means
  obtain rfl := Option.some.inj same
  simp only [meansAll_cons_iff, meansAll_nil_iff,
    means_literal_iff] at means
  obtain
    ⟨_, _, _, _, rfl, rfl, ⟨tree, member, rfl, rfl⟩,
      _, _, _, _, rfl, rfl, ⟨rfl, rfl⟩,
      _, _, _, _, rfl, rfl, ⟨rest, list, rfl, rfl⟩, rfl, rfl⟩ := means
  refine ⟨_, rfl, ?_⟩
  intro result done
  obtain rfl := Except.ok.inj done
  refine ⟨.more tree rest, _, rfl, ?_⟩
  simp [OperateParams.yield]

theorem ruleKeeps_callreturn : RuleKeeps 18 := by
  intro production same types_def values part means
  obtain rfl := Option.some.inj same
  simp only [meansAll_cons_iff, meansAll_nil_iff] at means
  obtain
    ⟨_, _, _, _, rfl, rfl, ⟨id, type, rfl, rfl⟩, rfl, rfl⟩ := means
  refine ⟨_, rfl, ?_⟩
  intro result done
  obtain rfl := Except.ok.inj done
  exact ⟨id, _, rfl, rfl⟩

theorem ruleKeeps_datamembers_one : RuleKeeps 20 := by
  intro production same types_def values part means
  obtain rfl := Option.some.inj same
  simp only [meansAll_cons_iff, meansAll_nil_iff] at means
  obtain
    ⟨_, _, _, _, rfl, rfl, ⟨tree, member, rfl, rfl⟩, rfl, rfl⟩ := means
  refine ⟨_, rfl, ?_⟩
  intro result done
  obtain rfl := Except.ok.inj done
  exact ⟨.one tree, _, rfl, List.append_nil _⟩

theorem ruleKeeps_datamembers_more : RuleKeeps 21 := by
  intro production same types_def values part means
  obtain rfl := Option.some.inj same
  simp only [meansAll_cons_iff, meansAll_nil_iff] at means
  obtain
    ⟨_, _, _, _, rfl, rfl, ⟨tree, member, rfl, rfl⟩, _, _, _, _, rfl, rfl,
      ⟨rest, list, rfl, rfl⟩, rfl, rfl⟩ := means
  refine ⟨_, rfl, ?_⟩
  intro result done
  obtain rfl := Except.ok.inj done
  exact ⟨.more tree rest, _, rfl, congrArg _ (List.append_nil _)⟩

theorem ruleKeeps_datamember : RuleKeeps 22 := by
  intro production same types_def values part means
  obtain rfl := Option.some.inj same
  simp only [meansAll_cons_iff, meansAll_nil_iff,
    means_literal_iff] at means
  obtain
    ⟨_, _, _, _, rfl, rfl, ⟨tree, member, rfl, rfl⟩,
      _, _, _, _, rfl, rfl, ⟨rfl, rfl⟩, rfl, rfl⟩ := means
  refine ⟨_, rfl, ?_⟩
  intro result done
  obtain rfl := Except.ok.inj done
  exact ⟨tree, _, rfl, rfl⟩

theorem ruleKeeps_typeId : RuleKeeps 23 := by
  intro production same types_def values part means
  obtain rfl := Option.some.inj same
  simp only [meansAll_cons_iff, meansAll_nil_iff,
    means_identifier_iff] at means
  obtain
    ⟨_, _, _, _, rfl, rfl, ⟨type, found, rfl, rfl⟩,
      _, _, _, _, rfl, rfl, ⟨id, rfl, rfl⟩, rfl, rfl⟩ := means
  refine ⟨_, rfl, ?_⟩
  intro result done
  obtain ⟨member, isValue⟩ := value_of_withTypes done
  exact ⟨⟨type, id⟩, member, isValue, rfl⟩

theorem ruleKeeps_type : RuleKeeps 24 := by
  intro production same types_def values part means
  obtain rfl := Option.some.inj same
  simp only [meansAll_cons_iff, meansAll_nil_iff,
    means_identifier_iff] at means
  obtain ⟨_, _, _, _, rfl, rfl, ⟨id, rfl, rfl⟩, rfl, rfl⟩ := means
  refine ⟨_, rfl, ?_⟩
  intro result done
  obtain ⟨type, isValue⟩ := value_of_withTypes done
  exact ⟨id, type, isValue, rfl⟩

/-- Rule 0 is the one that the tables accept by. -/
theorem rule_ne_zero {state rule : Nat} {ahead : Option TokenType}
    (reduces : slrParser.action state ahead = some (.reduce rule)) :
    rule ≠ 0 := by
  rintro rfl
  obtain ⟨place, isPlace, -, isEntry⟩ :=
    Parser.exists_entry_of_action reduces
  have none :
      ∀ place ∈ slrRows.zipIdx, ∀ entry ∈ place.1.actions,
        entry.2 ≠ .reduce 0 := by
    decide +kernel
  exact none place isPlace _ isEntry rfl

theorem slrParser_keeps : slrParser.Keeps SymbolMeans := by
  intro state ahead rule reduces production isRule
  have notZero := rule_ne_zero reduces
  obtain ⟨bound, -⟩ := List.getElem?_eq_some_iff.mp isRule
  have small : rule < 25 := bound
  have keeps : RuleKeeps rule := by
    interval_cases rule
    · exact absurd rfl notZero
    · exact ruleKeeps_start
    · exact ruleKeeps_definations_one
    · exact ruleKeeps_definations_more
    · exact ruleKeeps_defination rfl (fun _ _ means => means) fun _ _ _ => rfl
    · exact ruleKeeps_defination rfl (fun _ _ means => means) fun _ _ _ => rfl
    · exact ruleKeeps_defination rfl (fun _ _ means => means) fun _ _ _ => rfl
    · exact ruleKeeps_defination rfl (fun _ _ means => means) fun _ _ _ => rfl
    · exact ruleKeeps_empty
    · exact ruleKeeps_sequenceDef
    · exact ruleKeeps_dictionaryDef
    · exact ruleKeeps_interfaceDef
    · exact ruleKeeps_operatemembers_one
    · exact ruleKeeps_operatemembers_more
    · exact ruleKeeps_operatemember
    · exact ruleKeeps_operateparams_one
    · exact ruleKeeps_operateparams_empty
    · exact ruleKeeps_operateparams_more
    · exact ruleKeeps_callreturn
    · exact ruleKeeps_structDef
    · exact ruleKeeps_datamembers_one
    · exact ruleKeeps_datamembers_more
    · exact ruleKeeps_datamember
    · exact ruleKeeps_typeId
    · exact ruleKeeps_type
  exact keeps production isRule

/-- The parser ends, is never broken, and accepts only yields of trees. -/
theorem yaccParse_ends {input : List Token}
    (lexed : ∀ token ∈ input, token.Lexed) :
    ∃ parseEnd, yaccParse input = some parseEnd ∧ parseEnd ≠ .broken ∧
      ∀ value, parseEnd = .accepted value →
        SymbolMeans (.nonterminal .start) value input := by
  have reads :
      slrParser.Reads SymbolMeans input
        { stack := [], input, env := initBuiltinTypes } := by
    refine ⟨⟨[], Parser.Path.nil, rfl⟩, ?_⟩
    intro token member
    exact ⟨token, lexed token member, rfl, rfl, rfl⟩
  refine Parser.loop_of_reads slrParser_valid slrParser_keeps reads ?_
  change 4 * input.length + (0 + 4) < 4 * input.length + 5
  omega

end LocationServer

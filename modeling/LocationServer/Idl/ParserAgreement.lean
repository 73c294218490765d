import LocationServer.Idl.ParserSafety
import LocationServer.Idl.Scoping

/-!
# The parser and the grammar

On the yield of a tree without empty definitions, the rounds of the parser
amount to the actions of the tree, bottom up and from left to right, and end
with their result.  So the parser accepts a text exactly when the grammar
derives it and all actions succeed (`Accepts`), although the grammar derives
most texts in many ways.
-/

namespace LocationServer

open ShiftReduce Parser Xml

abbrev SlrEntry := Entry TokenType Nonterminal SymbolValue

variable {stack : List SlrEntry} {rest : List Token} {types_def : TypesDef}

/-! ## Reductions -/

theorem computes_rule (types_def : TypesDef) (popped : List SlrEntry)
    {rule state : Nat} {left : Nonterminal}
    {right : List (GrammarSymbol TokenType Nonterminal)}
    {computation : Except ParseFault (SymbolValue × TypesDef)}
    (reduces :
      slrParser.action (topState (popped ++ stack)) (slrParser.ahead rest) =
        some (.reduce rule))
    (isRule : slrProductions[rule]? = some { left, right })
    (whole : right.length = popped.length)
    (acts :
      slrAction types_def rule (popped.reverse.map Entry.value) =
        some computation)
    (goes : slrParser.goto (topState stack) left = some state) :
    slrParser.Computes ⟨popped ++ stack, rest, types_def⟩ computation
      fun result =>
        ⟨⟨state, .nonterminal left, result.1⟩ :: stack, rest,
          result.2⟩ :=
  computes_reduce reduces isRule whole acts goes

/-- A reduction whose action cannot fail. -/
theorem leads_rule (types_def : TypesDef) (popped : List SlrEntry)
    {rule state : Nat} {left : Nonterminal}
    {right : List (GrammarSymbol TokenType Nonterminal)} {value : SymbolValue}
    (reduces :
      slrParser.action (topState (popped ++ stack)) (slrParser.ahead rest) =
        some (.reduce rule))
    (isRule : slrProductions[rule]? = some { left, right })
    (whole : right.length = popped.length)
    (acts :
      slrAction types_def rule (popped.reverse.map Entry.value) =
        some (.ok (value, types_def)))
    (goes : slrParser.goto (topState stack) left = some state) :
    slrParser.Leads ⟨popped ++ stack, rest, types_def⟩
      ⟨⟨state, .nonterminal left, value⟩ :: stack, rest,
        types_def⟩ :=
  computes_rule types_def popped reduces isRule whole acts goes

/-! ## Types -/

theorem pTypeId_eq (types_def : TypesDef) (tree : TypeIdTree) :
    pTypeId types_def tree =
      pType types_def tree.type >>= fun type =>
        typeIdAction types_def type tree.id.text :=
  rfl

theorem computes_type {state : Nat} (id : Identifier)
    (shifts :
      slrParser.action (topState stack) (some .identifier) =
        some (.shift 22))
    (goes : slrParser.goto (topState stack) .type = some state)
    (reduces :
      slrParser.action 22 (slrParser.ahead rest) = some (.reduce 24)) :
    slrParser.Computes ⟨stack, id.token :: rest, types_def⟩
      (pType types_def id) fun type =>
        ⟨⟨state, .nonterminal .type, .type type⟩ :: stack, rest,
          types_def⟩ := by
  refine Computes.of_leads (leads_shift shifts) ?_
  have reduced :=
    computes_rule types_def [⟨22, .terminal .identifier, .token id.text⟩]
      reduces rfl rfl rfl goes
  exact computes_map.mp reduced

theorem computes_typeId {state : Nat} (tree : TypeIdTree)
    (shifts :
      slrParser.action (topState stack) (some .identifier) =
        some (.shift 22))
    (goesType : slrParser.goto (topState stack) .type = some 28)
    (goes : slrParser.goto (topState stack) .typeId = some state)
    (reduces :
      slrParser.action 38 (slrParser.ahead rest) = some (.reduce 23)) :
    slrParser.Computes ⟨stack, tree.yield ++ rest, types_def⟩
      (pTypeId types_def tree) fun member =>
        ⟨⟨state, .nonterminal .typeId, .typeId member⟩ :: stack, rest,
          types_def⟩ := by
  rw [pTypeId_eq]
  refine Computes.bind (computes_type tree.type shifts goesType rfl) ?_
  intro type _
  refine Computes.of_leads (leads_shift rfl) ?_
  have reduced :=
    computes_rule types_def
      [⟨38, .terminal .identifier, .token tree.id.text⟩,
        ⟨28, .nonterminal .type, .type type⟩] reduces rfl rfl rfl goes
  exact computes_map.mp reduced

/-! ## Lists -/

section Productions

variable {α β : Type} {yieldItem : α → List Token}
variable {pItem : α → Except ParseFault β}
variable {toItem : β → SymbolValue} {toList : List β → SymbolValue}
variable {item list : Nonterminal}

/-- A list of the grammar up to the brace behind it, from a state that can open
an item. -/
theorem computes_productions (one more itemState moreState : Nat)
    (opens : Nat → Prop)
    (items :
      ∀ (stack : List SlrEntry) (tree : α) (rest : List Token),
        opens (topState stack) →
        slrParser.ahead rest = some .identifier ∨
            slrParser.ahead rest = some (.literal '}') →
          slrParser.Computes ⟨stack, yieldItem tree ++ rest, types_def⟩
            (pItem tree) fun result =>
              ⟨⟨itemState, .nonterminal item, toItem result⟩ :: stack, rest,
                types_def⟩)
    (starts :
      ∀ tree rest,
        slrParser.ahead (yieldItem tree ++ rest) = some .identifier)
    (isOne :
      slrProductions[one]? =
        some { left := list, right := [.nonterminal item] })
    (isMore :
      slrProductions[more]? =
        some
          { left := list
            right := [.nonterminal item, .nonterminal list] })
    (actsOne :
      ∀ result,
        slrAction types_def one [toItem result] =
          some (.ok (toList [result], types_def)))
    (actsMore :
      ∀ result results,
        slrAction types_def more [toItem result, toList results] =
          some (.ok (toList (results ++ [result]), types_def)))
    (reducesOne :
      slrParser.action itemState (some (.literal '}')) =
        some (.reduce one))
    (reducesMore :
      slrParser.action moreState (some (.literal '}')) =
        some (.reduce more))
    (opensMore : opens itemState)
    (goesMore : slrParser.goto itemState list = some moreState)
    (tree : Productions α) :
    ∀ (stack : List SlrEntry) (state : Nat),
      opens (topState stack) →
      slrParser.goto (topState stack) list = some state →
        slrParser.Computes
          ⟨stack, tree.yield yieldItem ++ literal '}' :: rest, types_def⟩
          (pProductions pItem tree) fun results =>
            ⟨⟨state, .nonterminal list, toList results⟩ :: stack,
              literal '}' :: rest, types_def⟩ := by
  induction tree with
  | one tree =>
      intro stack state isOpen goes
      refine Computes.bind (items stack tree _ isOpen (Or.inr rfl)) ?_
      intro result _
      apply Computes.of_ok
      exact
        leads_rule types_def
          [⟨itemState, .nonterminal item, toItem result⟩] reducesOne isOne rfl
          (actsOne result) goes
  | more tree trees inductionHypothesis =>
      intro stack state isOpen goes
      have next :
          slrParser.ahead
              (trees.yield yieldItem ++ literal '}' :: rest) =
            some .identifier := by
        cases trees with
        | one last => exact starts last _
        | more last others =>
            rw [Productions.yield, List.append_assoc]
            exact starts last _
      rw [Productions.yield, List.append_assoc]
      refine Computes.bind (items stack tree _ isOpen (Or.inl next)) ?_
      intro result _
      refine
        Computes.bind
          (inductionHypothesis
            (⟨itemState, .nonterminal item, toItem result⟩ :: stack)
            moreState opensMore goesMore) ?_
      intro results _
      apply Computes.of_ok
      exact
        leads_rule types_def
          [⟨moreState, .nonterminal list, toList results⟩,
            ⟨itemState, .nonterminal item, toItem result⟩]
          reducesMore isMore rfl (actsMore result results) goes

end Productions

theorem computes_datamember (tree : TypeIdTree)
    (opens : topState stack = 21 ∨ topState stack = 26)
    (follows :
      slrParser.ahead rest = some .identifier ∨
        slrParser.ahead rest = some (.literal '}')) :
    slrParser.Computes
      ⟨stack, (tree.yield ++ [literal ';']) ++ rest, types_def⟩
      (pTypeId types_def tree) fun member =>
        ⟨⟨26, .nonterminal .datamember, .typeId member⟩ :: stack, rest,
          types_def⟩ := by
  have goes :
      slrParser.action (topState stack) (some .identifier) =
          some (.shift 22) ∧
        slrParser.goto (topState stack) .type = some 28 ∧
          slrParser.goto (topState stack) .typeId = some 27 ∧
            slrParser.goto (topState stack) .datamember = some 26 := by
    rcases opens with isTop | isTop <;> rw [isTop] <;> decide
  obtain ⟨shifts, goesType, goesTypeId, goesMember⟩ := goes
  have reduces :
      slrParser.action 37 (slrParser.ahead rest) = some (.reduce 22) := by
    rcases follows with isNext | isNext <;> rw [isNext] <;> decide
  rw [List.append_assoc]
  refine
    Computes.leads (computes_typeId tree shifts goesType goesTypeId rfl) ?_
  intro member
  refine Relation.ReflTransGen.trans (leads_shift rfl) ?_
  exact
    leads_rule types_def
      [⟨37, .terminal (.literal ';'), .token [';']⟩,
        ⟨27, .nonterminal .typeId, .typeId member⟩]
      reduces rfl rfl rfl goesMember

theorem computes_datamembers (tree : Productions TypeIdTree)
    (isTop : topState stack = 21) :
    slrParser.Computes
      ⟨stack, datamembersTokens tree ++ literal '}' :: rest, types_def⟩
      (pProductions (pTypeId types_def) tree) fun list =>
        ⟨⟨29, .nonterminal .datamembers, .typeIds list⟩ :: stack,
          literal '}' :: rest, types_def⟩ :=
  computes_productions 20 21 26 36
    (fun state => state = 21 ∨ state = 26)
    (fun _ tree _ opens follows => computes_datamember tree opens follows)
    (fun _ _ => rfl) rfl rfl (fun _ => rfl) (fun _ _ => rfl) rfl rfl
    (Or.inr rfl) rfl tree stack 29 (Or.inl isTop) (by rw [isTop]; rfl)

/-! ## Operations -/

theorem computes_operateparams (tree : OperateParams) :
    ∀ (stack : List SlrEntry) (state : Nat),
      topState stack = 46 ∨ topState stack = 51 →
      slrParser.goto (topState stack) .operateparams = some state →
        slrParser.Computes
          ⟨stack, tree.yield ++ literal ')' :: rest, types_def⟩
          (pOperateparams types_def tree) fun list =>
            ⟨⟨state, .nonterminal .operateparams, .typeIds list⟩ :: stack,
              literal ')' :: rest, types_def⟩ := by
  have tables :
      ∀ top, top = 46 ∨ top = 51 →
        slrParser.action top (some (.literal ')')) = some (.reduce 16) ∧
          slrParser.action top (some .identifier) = some (.shift 22) ∧
            slrParser.goto top .type = some 28 ∧
              slrParser.goto top .typeId = some 49 := by
    rintro top (rfl | rfl) <;> decide
  induction tree with
  | empty =>
      intro stack state opens goes
      apply Computes.of_ok
      exact leads_rule types_def [] (tables _ opens).1 rfl rfl rfl goes
  | one param =>
      intro stack state opens goes
      obtain ⟨-, shifts, goesType, goesTypeId⟩ := tables _ opens
      refine
        Computes.bind (computes_typeId param shifts goesType goesTypeId rfl)
          ?_
      intro member _
      apply Computes.of_ok
      exact
        leads_rule types_def [⟨49, .nonterminal .typeId, .typeId member⟩] rfl
          rfl rfl rfl goes
  | more param params inductionHypothesis =>
      intro stack state opens goes
      obtain ⟨-, shifts, goesType, goesTypeId⟩ := tables _ opens
      rw [OperateParams.yield, List.append_assoc]
      refine
        Computes.bind (computes_typeId param shifts goesType goesTypeId rfl)
          ?_
      intro member _
      refine Computes.of_leads (leads_shift rfl) ?_
      refine
        Computes.bind
          (inductionHypothesis
            (⟨51, .terminal (.literal ','), .token [',']⟩ ::
              ⟨49, .nonterminal .typeId, .typeId member⟩ :: stack)
            53 (Or.inr rfl) rfl) ?_
      intro list _
      apply Computes.of_ok
      exact
        leads_rule types_def
          [⟨53, .nonterminal .operateparams, .typeIds list⟩,
            ⟨51, .terminal (.literal ','), .token [',']⟩,
            ⟨49, .nonterminal .typeId, .typeId member⟩]
          rfl rfl rfl rfl goes

theorem computes_operatemember (tree : OperateMemberTree)
    (opens : topState stack = 24 ∨ topState stack = 34)
    (follows :
      slrParser.ahead rest = some .identifier ∨
        slrParser.ahead rest = some (.literal '}')) :
    slrParser.Computes ⟨stack, tree.yield ++ rest, types_def⟩
      (pOperatemember types_def tree) fun opm =>
        ⟨⟨34, .nonterminal .operatemember, .operatemember opm⟩ :: stack, rest,
          types_def⟩ := by
  have goes :
      slrParser.action (topState stack) (some .identifier) =
          some (.shift 22) ∧
        slrParser.goto (topState stack) .type = some 33 ∧
          slrParser.goto (topState stack) .callreturn = some 32 ∧
            slrParser.goto (topState stack) .operatemember = some 34 := by
    rcases opens with isTop | isTop <;> rw [isTop] <;> decide
  obtain ⟨shifts, goesType, goesCallreturn, goesMember⟩ := goes
  have reduces :
      slrParser.action 52 (slrParser.ahead rest) = some (.reduce 14) := by
    rcases follows with isNext | isNext <;> rw [isNext] <;> decide
  have spelled :
      tree.yield ++ rest =
        tree.callreturn.token :: tree.name.token :: literal '(' ::
          (tree.params.yield ++ literal ')' :: literal ';' :: rest) := by
    simp [OperateMemberTree.yield]
  rw [spelled]
  refine Computes.bind (computes_type tree.callreturn shifts goesType rfl) ?_
  intro type _
  have callreturn :=
    @leads_rule stack
      (tree.name.token :: literal '(' ::
        (tree.params.yield ++ literal ')' :: literal ';' :: rest))
      types_def [⟨33, .nonterminal .type, .type type⟩] 18 32 _ _
      (.type type) rfl rfl rfl rfl goesCallreturn
  refine Computes.of_leads callreturn ?_
  refine Computes.of_leads (leads_shift rfl) ?_
  refine Computes.of_leads (leads_shift rfl) ?_
  refine
    Computes.bind
      (computes_operateparams tree.params
        (⟨46, .terminal (.literal '('), .token ['(']⟩ ::
          ⟨42, .terminal .identifier, .token tree.name.text⟩ ::
          ⟨32, .nonterminal .callreturn, .type type⟩ :: stack)
        48 (Or.inl rfl) rfl) ?_
  intro params _
  refine Relation.ReflTransGen.trans (leads_shift rfl) ?_
  refine Relation.ReflTransGen.trans (leads_shift rfl) ?_
  exact
    leads_rule types_def
      [⟨52, .terminal (.literal ';'), .token [';']⟩,
        ⟨50, .terminal (.literal ')'), .token [')']⟩,
        ⟨48, .nonterminal .operateparams, .typeIds params⟩,
        ⟨46, .terminal (.literal '('), .token ['(']⟩,
        ⟨42, .terminal .identifier, .token tree.name.text⟩,
        ⟨32, .nonterminal .callreturn, .type type⟩]
      reduces rfl rfl rfl goesMember

theorem computes_operatemembers (tree : Productions OperateMemberTree)
    (isTop : topState stack = 24) :
    slrParser.Computes
      ⟨stack, tree.yield OperateMemberTree.yield ++ literal '}' :: rest,
        types_def⟩
      (pProductions (pOperatemember types_def) tree) fun opms =>
        ⟨⟨31, .nonterminal .operatemembers, .operatemembers opms⟩ :: stack,
          literal '}' :: rest, types_def⟩ :=
  computes_productions 12 13 34 43
    (fun state => state = 24 ∨ state = 34)
    (fun _ tree _ opens follows => computes_operatemember tree opens follows)
    (fun _ _ => rfl) rfl rfl (fun _ => rfl) (fun _ _ => rfl) rfl rfl
    (Or.inr rfl) rfl tree stack 31 (Or.inl isTop) (by rw [isTop]; rfl)

/-! ## Definitions -/

theorem pStructDef_eq (types_def : TypesDef) (name : Identifier)
    (members : Productions TypeIdTree) :
    pStructDef types_def name members =
      pProductions (pTypeId types_def) members >>= fun list =>
        structDefAction types_def name.text list :=
  rfl

theorem pInterfaceDef_eq (types_def : TypesDef) (name : Identifier)
    (members : Productions OperateMemberTree) :
    pInterfaceDef types_def name members =
      pProductions (pOperatemember types_def) members >>= fun opms =>
        interfaceDefAction types_def name.text opms :=
  rfl

theorem pSequenceDef_eq (types_def : TypesDef) (type name : Identifier) :
    pSequenceDef types_def type name =
      pType types_def type >>= fun type =>
        sequenceDefAction types_def type name.text :=
  rfl

theorem pDictionaryDef_eq (types_def : TypesDef)
    (first second name : Identifier) :
    pDictionaryDef types_def first second name =
      pType types_def first >>= fun first =>
        pType types_def second >>= fun second =>
          dictionaryDefAction types_def first second name.text :=
  rfl

/-- What can follow a definition. -/
def followsDefination : List (Option TokenType) :=
  [none, some .struct, some .interface, some .sequence, some .dictionary]

/-- A definition is open at the start and behind another one. -/
def OpensDefination (top : Nat) : Prop :=
  top = 0 ∨ top = 5

/-- The semicolon behind a definition. -/
theorem leads_defination {left : Nonterminal} {rule leftState ended : Nat}
    (d : TypeDef)
    (isRule :
      slrProductions[rule]? =
        some
          { left := .defination
            right := [.nonterminal left, .terminal (.literal ';')] })
    (acts :
      slrAction types_def rule [.defination d, .token [';']] =
        some (.ok (.defination d, types_def)))
    (shifts :
      slrParser.action leftState (some (.literal ';')) =
        some (.shift ended))
    (reduces :
      slrParser.action ended (slrParser.ahead rest) = some (.reduce rule))
    (opens : OpensDefination (topState stack)) :
    slrParser.Leads
      ⟨⟨leftState, .nonterminal left, .defination d⟩ :: stack,
        literal ';' :: rest, types_def⟩
      ⟨⟨5, .nonterminal .defination, .defination d⟩ :: stack, rest,
        types_def⟩ := by
  have goes : slrParser.goto (topState stack) .defination = some 5 := by
    rcases opens with isTop | isTop <;> rw [isTop] <;> decide
  refine Relation.ReflTransGen.trans (leads_shift shifts) ?_
  exact
    leads_rule types_def
      [⟨ended, .terminal (.literal ';'), .token [';']⟩,
        ⟨leftState, .nonterminal left, .defination d⟩]
      reduces isRule rfl acts goes

section Definations

variable (opens : OpensDefination (topState stack))
variable (follows : slrParser.ahead rest ∈ followsDefination)

include opens follows

theorem computes_struct (name : Identifier)
    (members : Productions TypeIdTree) :
    slrParser.Computes
      ⟨stack, (Defination.struct name members).yield ++ rest, types_def⟩
      (pStructDef types_def name members) fun result =>
        ⟨⟨5, .nonterminal .defination, .defination result.1⟩ :: stack, rest,
          result.2⟩ := by
  have tables :
      slrParser.action (topState stack) (some .struct) = some (.shift 2) ∧
        slrParser.goto (topState stack) .structDef = some 9 := by
    rcases opens with isTop | isTop <;> rw [isTop] <;> decide
  obtain ⟨shifts, goes⟩ := tables
  have reduces :
      ∀ ahead ∈ followsDefination,
        slrParser.action 18 ahead = some (.reduce 4) := by
    decide
  have spelled :
      (Defination.struct name members).yield ++ rest =
        { type := .struct, value := "struct".toList } :: name.token ::
          literal '{' :: (datamembersTokens members ++
            literal '}' :: literal ';' :: rest) := by
    simp [Defination.yield, datamembersTokens]
  rw [spelled, pStructDef_eq]
  refine Computes.of_leads (leads_shift shifts) ?_
  refine Computes.of_leads (leads_shift rfl) ?_
  refine Computes.of_leads (leads_shift rfl) ?_
  refine Computes.bind (computes_datamembers members rfl) ?_
  intro list _
  refine Computes.of_leads (leads_shift rfl) ?_
  have reduced :=
    @computes_rule stack (literal ';' :: rest) types_def
      [⟨39, .terminal (.literal '}'), .token ['}']⟩,
        ⟨29, .nonterminal .datamembers, .typeIds list⟩,
        ⟨21, .terminal (.literal '{'), .token ['{']⟩,
        ⟨13, .terminal .identifier, .token name.text⟩,
        ⟨2, .terminal .struct, .token "struct".toList⟩]
      19 9 .structDef _ _ rfl rfl rfl rfl goes
  refine Computes.leads (computes_map.mp reduced) ?_
  intro result
  exact
    leads_defination result.1 rfl rfl rfl (reduces _ follows) opens

theorem computes_interface (name : Identifier)
    (members : Productions OperateMemberTree) :
    slrParser.Computes
      ⟨stack, (Defination.interface name members).yield ++ rest, types_def⟩
      (pInterfaceDef types_def name members) fun result =>
        ⟨⟨5, .nonterminal .defination, .defination result.1⟩ :: stack, rest,
          result.2⟩ := by
  have tables :
      slrParser.action (topState stack) (some .interface) =
          some (.shift 10) ∧
        slrParser.goto (topState stack) .interfaceDef = some 1 := by
    rcases opens with isTop | isTop <;> rw [isTop] <;> decide
  obtain ⟨shifts, goes⟩ := tables
  have reduces :
      ∀ ahead ∈ followsDefination,
        slrParser.action 12 ahead = some (.reduce 5) := by
    decide
  have spelled :
      (Defination.interface name members).yield ++ rest =
        { type := .interface, value := "interface".toList } :: name.token ::
          literal '{' :: (members.yield OperateMemberTree.yield ++
            literal '}' :: literal ';' :: rest) := by
    simp [Defination.yield]
  rw [spelled, pInterfaceDef_eq]
  refine Computes.of_leads (leads_shift shifts) ?_
  refine Computes.of_leads (leads_shift rfl) ?_
  refine Computes.of_leads (leads_shift rfl) ?_
  refine Computes.bind (computes_operatemembers members rfl) ?_
  intro opms _
  refine Computes.of_leads (leads_shift rfl) ?_
  have reduced :=
    @computes_rule stack (literal ';' :: rest) types_def
      [⟨41, .terminal (.literal '}'), .token ['}']⟩,
        ⟨31, .nonterminal .operatemembers, .operatemembers opms⟩,
        ⟨24, .terminal (.literal '{'), .token ['{']⟩,
        ⟨19, .terminal .identifier, .token name.text⟩,
        ⟨10, .terminal .interface, .token "interface".toList⟩]
      11 1 .interfaceDef _ _ rfl rfl rfl rfl goes
  refine Computes.leads (computes_map.mp reduced) ?_
  intro result
  exact
    leads_defination result.1 rfl rfl rfl (reduces _ follows) opens

theorem computes_sequence (type name : Identifier) :
    slrParser.Computes
      ⟨stack, (Defination.sequence type name).yield ++ rest, types_def⟩
      (pSequenceDef types_def type name) fun result =>
        ⟨⟨5, .nonterminal .defination, .defination result.1⟩ :: stack, rest,
          result.2⟩ := by
  have tables :
      slrParser.action (topState stack) (some .sequence) =
          some (.shift 11) ∧
        slrParser.goto (topState stack) .sequenceDef = some 8 := by
    rcases opens with isTop | isTop <;> rw [isTop] <;> decide
  obtain ⟨shifts, goes⟩ := tables
  have reduces :
      ∀ ahead ∈ followsDefination,
        slrParser.action 17 ahead = some (.reduce 6) := by
    decide
  rw [pSequenceDef_eq]
  refine Computes.of_leads (leads_shift shifts) ?_
  refine Computes.of_leads (leads_shift rfl) ?_
  refine Computes.bind (computes_type type rfl rfl rfl) ?_
  intro item _
  refine Computes.of_leads (leads_shift rfl) ?_
  refine Computes.of_leads (leads_shift rfl) ?_
  have reduced :=
    @computes_rule stack (literal ';' :: rest) types_def
      [⟨44, .terminal .identifier, .token name.text⟩,
        ⟨35, .terminal (.literal '>'), .token ['>']⟩,
        ⟨25, .nonterminal .type, .type item⟩,
        ⟨20, .terminal (.literal '<'), .token ['<']⟩,
        ⟨11, .terminal .sequence, .token "sequence".toList⟩]
      9 8 .sequenceDef _ _ rfl rfl rfl rfl goes
  refine Computes.leads (computes_map.mp reduced) ?_
  intro result
  exact
    leads_defination result.1 rfl rfl rfl (reduces _ follows) opens

theorem computes_dictionary (first second name : Identifier) :
    slrParser.Computes
      ⟨stack, (Defination.dictionary first second name).yield ++ rest,
        types_def⟩
      (pDictionaryDef types_def first second name) fun result =>
        ⟨⟨5, .nonterminal .defination, .defination result.1⟩ :: stack, rest,
          result.2⟩ := by
  have tables :
      slrParser.action (topState stack) (some .dictionary) =
          some (.shift 6) ∧
        slrParser.goto (topState stack) .dictionaryDef = some 3 := by
    rcases opens with isTop | isTop <;> rw [isTop] <;> decide
  obtain ⟨shifts, goes⟩ := tables
  have reduces :
      ∀ ahead ∈ followsDefination,
        slrParser.action 14 ahead = some (.reduce 7) := by
    decide
  rw [pDictionaryDef_eq]
  refine Computes.of_leads (leads_shift shifts) ?_
  refine Computes.of_leads (leads_shift rfl) ?_
  refine Computes.bind (computes_type first rfl rfl rfl) ?_
  intro key _
  refine Computes.of_leads (leads_shift rfl) ?_
  refine Computes.bind (computes_type second rfl rfl rfl) ?_
  intro value _
  refine Computes.of_leads (leads_shift rfl) ?_
  refine Computes.of_leads (leads_shift rfl) ?_
  have reduced :=
    @computes_rule stack (literal ';' :: rest) types_def
      [⟨47, .terminal .identifier, .token name.text⟩,
        ⟨45, .terminal (.literal '>'), .token ['>']⟩,
        ⟨40, .nonterminal .type, .type value⟩,
        ⟨30, .terminal (.literal ','), .token [',']⟩,
        ⟨23, .nonterminal .type, .type key⟩,
        ⟨16, .terminal (.literal '<'), .token ['<']⟩,
        ⟨6, .terminal .dictionary, .token "dictionary".toList⟩]
      10 3 .dictionaryDef _ _ rfl rfl rfl rfl goes
  refine Computes.leads (computes_map.mp reduced) ?_
  intro result
  exact
    leads_defination result.1 rfl rfl rfl (reduces _ follows) opens

theorem computes_defination {tree : Defination} (filled : tree ≠ .empty) :
    slrParser.Computes ⟨stack, tree.yield ++ rest, types_def⟩
      (pDefination types_def tree) fun result =>
        ⟨⟨5, .nonterminal .defination, .defination result.1⟩ :: stack, rest,
          result.2⟩ := by
  cases tree with
  | struct name members => exact computes_struct opens follows name members
  | interface name members =>
      exact computes_interface opens follows name members
  | sequence type name => exact computes_sequence opens follows type name
  | dictionary first second name =>
      exact computes_dictionary opens follows first second name
  | empty => exact absurd rfl filled

end Definations

/-! ## Units -/

theorem pDefinations_one_eq (types_def : TypesDef) (tree : Defination) :
    pDefinations types_def (.one tree) =
      pDefination types_def tree >>= fun result =>
        .ok ([result.1], result.2) := by
  rw [pDefinations]
  congr 1

theorem pDefinations_more_eq (types_def : TypesDef) (tree : Defination)
    (trees : Definations) :
    pDefinations types_def (.more tree trees) =
      pDefination types_def tree >>= fun result =>
        pDefinations result.2 trees >>= fun others =>
          .ok (others.1 ++ [result.1], others.2) := by
  rw [pDefinations]
  congr 1

theorem Definations.Filled.follows {tree : Definations}
    (filled : tree.Filled) :
    slrParser.ahead tree.tokens ∈ followsDefination := by
  have first :
      ∀ d : Defination, d ≠ .empty → ∀ rest,
        slrParser.ahead (d.yield ++ rest) ∈ followsDefination := by
    intro d filled rest
    cases d with
    | struct name members => exact List.mem_of_elem_eq_true rfl
    | interface name members => exact List.mem_of_elem_eq_true rfl
    | sequence type name => exact List.mem_of_elem_eq_true rfl
    | dictionary first second name => exact List.mem_of_elem_eq_true rfl
    | empty => exact absurd rfl filled
  cases tree with
  | one d =>
      rw [tokens, Productions.yield, ← List.append_nil d.yield]
      exact first d filled []
  | more d trees => exact first d filled.1 _

theorem computes_definations (tree : Definations) (filled : tree.Filled) :
    ∀ (stack : List SlrEntry) (types_def : TypesDef) (state : Nat),
      OpensDefination (topState stack) →
      slrParser.goto (topState stack) .definations = some state →
        slrParser.Computes ⟨stack, tree.tokens, types_def⟩
          (pDefinations types_def tree) fun result =>
            ⟨⟨state, .nonterminal .definations, .definations result.1⟩ ::
              stack, [], result.2⟩ := by
  induction tree with
  | one tree =>
      intro stack types_def state opens goes
      have defination :=
        @computes_defination stack [] types_def opens
          List.mem_cons_self tree filled
      rw [List.append_nil] at defination
      rw [pDefinations_one_eq]
      refine Computes.bind defination ?_
      intro result _
      apply Computes.of_ok
      exact
        leads_rule result.2
          [⟨5, .nonterminal .defination, .defination result.1⟩] rfl rfl rfl
          rfl goes
  | more tree trees inductionHypothesis =>
      intro stack types_def state opens goes
      rw [pDefinations_more_eq]
      refine
        Computes.bind
          (computes_defination opens filled.2.follows filled.1) ?_
      intro result _
      refine
        Computes.bind
          (inductionHypothesis filled.2
            (⟨5, .nonterminal .defination, .defination result.1⟩ :: stack)
            result.2 15 (Or.inr rfl) rfl) ?_
      intro others _
      apply Computes.of_ok
      exact
        leads_rule others.2
          [⟨15, .nonterminal .definations, .definations others.1⟩,
            ⟨5, .nonterminal .defination, .defination result.1⟩]
          rfl rfl rfl rfl goes

/-! ## Texts -/

/-- How the parse of a tree ends. -/
def unitEnd :
    Except ParseFault (List TypeDef) → ParseEnd SymbolValue ParseFault
  | .ok unit => .accepted (.unit unit)
  | .error fault => .fault fault

theorem pStart_eq (tree : Definations) :
    pStart tree =
      pDefinations initBuiltinTypes tree >>= fun result =>
        .ok result.1.reverse := by
  rw [pStart]
  congr 1

theorem ends_of_tree {tree : Definations} (filled : tree.Filled) :
    slrParser.Ends ⟨[], tree.tokens, initBuiltinTypes⟩
      (unitEnd (pStart tree)) := by
  have definations :=
    computes_definations tree filled [] initBuiltinTypes 4 (Or.inl rfl) rfl
  have started :
      slrParser.Computes ⟨[], tree.tokens, initBuiltinTypes⟩
        (pDefinations initBuiltinTypes tree) fun result =>
          ⟨[⟨7, .nonterminal .start, .unit result.1.reverse⟩], [],
            result.2⟩ := by
    refine Computes.leads definations ?_
    intro result
    exact
      leads_rule result.2
        [⟨4, .nonterminal .definations, .definations result.1⟩] rfl rfl rfl
        rfl rfl
  rw [pStart_eq]
  cases done : pDefinations initBuiltinTypes tree with
  | error fault =>
      rw [done] at started
      exact started
  | ok result =>
      rw [done] at started
      exact Leads.ends started (ends_accept rfl)

/-- On a text that the grammar derives, the parser does what the actions of the
tree do. -/
theorem syntaxResult_of_tree {text : Text} {tree : Definations}
    (filled : tree.Filled) (yields : tree.tokens = tokens text) :
    syntaxResult text = some (unitEnd (pStart tree)) := by
  obtain ⟨parseEnd, parsed, -⟩ :=
    yaccParse_ends fun token member =>
      (lexed_of_mem_tokens member : token.Lexed)
  obtain ⟨fuel, found⟩ := (ends_of_tree filled).exists_loop
  rw [yields] at found
  rw [syntaxResult, parsed]
  exact congrArg some (loop_unique parsed found)

/-- Empty definitions add nothing to the yield of a tree. -/
theorem exists_filled (tree : Definations) :
    tree.tokens = [] ∨
      ∃ other : Definations, other.Filled ∧ other.tokens = tree.tokens := by
  induction tree with
  | one tree =>
      by_cases empty : tree = .empty
      · subst empty
        exact Or.inl rfl
      · exact Or.inr ⟨.one tree, empty, rfl⟩
  | more tree trees inductionHypothesis =>
      have split :
          Definations.tokens (.more tree trees) =
            tree.yield ++ Definations.tokens trees := rfl
      by_cases empty : tree = .empty
      · subst empty
        exact inductionHypothesis
      · right
        rw [split]
        rcases inductionHypothesis with nothing | ⟨other, filled, same⟩
        · refine ⟨.one tree, empty, ?_⟩
          rw [nothing, List.append_nil]
          rfl
        · refine ⟨.more tree other, ⟨empty, filled⟩, ?_⟩
          rw [← same]
          rfl

theorem filled_of_pDefinations {tree : Definations} :
    ∀ {types_def : TypesDef} {result : List TypeDef × TypesDef},
      pDefinations types_def tree = .ok result → tree.Filled := by
  have notEmpty :
      ∀ {types_def : TypesDef} {tree : Defination}
        {result : TypeDef × TypesDef},
        pDefination types_def tree = .ok result → tree ≠ .empty := by
    rintro types_def tree result done rfl
    cases done
  induction tree with
  | one tree =>
      intro types_def result done
      rw [pDefinations_one_eq] at done
      obtain ⟨first, isFirst, -⟩ := bind_eq_ok.mp done
      exact notEmpty isFirst
  | more tree trees inductionHypothesis =>
      intro types_def result done
      rw [pDefinations_more_eq] at done
      obtain ⟨first, isFirst, later⟩ := bind_eq_ok.mp done
      obtain ⟨others, areOthers, -⟩ := bind_eq_ok.mp later
      exact ⟨notEmpty isFirst, inductionHypothesis areOthers⟩

theorem tree_of_accepted {text : Text} {value : SymbolValue}
    (accepted : syntaxResult text = some (.accepted value)) :
    ∃ tree : Definations, tree.Filled ∧ tree.tokens = tokens text := by
  obtain ⟨parseEnd, parsed, -, means⟩ :=
    yaccParse_ends fun token member =>
      (lexed_of_mem_tokens member : token.Lexed)
  obtain rfl := Option.some.inj (parsed.symm.trans accepted)
  obtain ⟨tree, unit, filled, -, yields⟩ := means value rfl
  exact ⟨tree, filled, yields.symm⟩

theorem unitEnd_eq_accepted_iff {result : Except ParseFault (List TypeDef)}
    {unit : List TypeDef} :
    unitEnd result = .accepted (.unit unit) ↔ result = .ok unit := by
  cases result with
  | error fault => simp [unitEnd]
  | ok other => simp [unitEnd]

/-- The parser accepts a text exactly when the grammar derives it and the
actions of the tree succeed, and then with the unit that they make. -/
theorem syntaxResult_accepts_iff (text : Text) (unit : List TypeDef) :
    syntaxResult text = some (.accepted (.unit unit)) ↔
      Accepts text unit := by
  constructor
  · intro accepted
    obtain ⟨tree, filled, yields⟩ := tree_of_accepted accepted
    refine ⟨tree, yields, ?_⟩
    rw [syntaxResult_of_tree filled yields] at accepted
    exact unitEnd_eq_accepted_iff.mp (Option.some.inj accepted)
  · rintro ⟨tree, yields, made⟩
    have filled : tree.Filled := by
      rw [pStart_eq] at made
      obtain ⟨result, done, -⟩ := bind_eq_ok.mp made
      exact filled_of_pDefinations done
    rw [syntaxResult_of_tree filled yields, made]
    rfl

/-- How the parse of any text ends, at the latest at its first syntax error:
with the unit of a tree, with the fault that the actions raise for every
filled tree, or with a syntax error, which no text of the grammar gets. -/
theorem syntaxResult_ends (text : Text) :
    (∃ tree : Definations, ∃ unit,
      tree.tokens = tokens text ∧ pStart tree = .ok unit ∧
        syntaxResult text = some (.accepted (.unit unit))) ∨
    (∃ fault, syntaxResult text = some (.fault fault) ∧
      ∀ tree : Definations, tree.Filled → tree.tokens = tokens text →
        pStart tree = .error fault) ∨
    (syntaxResult text = some .syntaxError ∧
      ∀ tree : Definations, tree.tokens ≠ tokens text) := by
  obtain ⟨parseEnd, parsed, notBroken, -⟩ :=
    yaccParse_ends fun token member =>
      (lexed_of_mem_tokens member : token.Lexed)
  have result : syntaxResult text = some parseEnd := parsed
  cases parseEnd with
  | accepted value =>
      obtain ⟨tree, filled, yields⟩ := tree_of_accepted result
      have same := syntaxResult_of_tree filled yields
      cases made : pStart tree with
      | error fault =>
          rw [made, result] at same
          cases same
      | ok unit =>
          rw [made] at same
          exact Or.inl ⟨tree, unit, yields, made, same⟩
  | fault fault =>
      refine Or.inr (Or.inl ⟨fault, result, ?_⟩)
      intro tree filled yields
      have same := syntaxResult_of_tree filled yields
      rw [result] at same
      cases made : pStart tree with
      | error other =>
          rw [made] at same
          obtain rfl := ParseEnd.fault.inj (Option.some.inj same)
          rfl
      | ok unit =>
          rw [made] at same
          cases same
  | syntaxError =>
      refine Or.inr (Or.inr ⟨result, ?_⟩)
      intro tree yields
      rcases exists_filled tree with nothing | ⟨other, filled, same⟩
      · rw [syntaxResult, ← yields, nothing] at result
        cases result
      · rw [syntaxResult_of_tree filled (same.trans yields)] at result
        cases made : pStart other with
        | error fault =>
            rw [made] at result
            cases result
        | ok unit =>
            rw [made] at result
            cases result
  | broken => exact absurd rfl notBroken

end LocationServer

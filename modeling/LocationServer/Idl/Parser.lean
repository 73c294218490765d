import LocationServer.Idl.Syntax
import LocationServer.Idl.Tables

/-!
# The parser of interface definitions (`mylex.py`)

`yacc.parse` over the tables of `parser.out`, with the functions `p_…` of
`mylex.py` as the actions of the productions.  The values that they find in
`t[1]`, `t[2]` and so on are those of the symbols on the stack, a token's value
being its text.

What PLY tries behind a syntax error is left out: the parse ends there.
-/

namespace LocationServer

open ShiftReduce Xml

/-! ## The actions -/

/-- The value of a symbol. -/
inductive SymbolValue where
  | token (value : Text)
  | type (type : TypeDef)
  | typeId (member : TypeId TypeDef)
  | typeIds (list : List (TypeId TypeDef))
  | operatemember (opm : OperateMember TypeDef)
  | operatemembers (list : List (OperateMember TypeDef))
  | defination (d : TypeDef)
  | definations (defs : List TypeDef)
  | unit (list : List TypeDef)

/-- `p_type`. -/
def typeAction (types_def : TypesDef) (name : Text) :
    Except ParseFault TypeDef :=
  match getTypeDef types_def name with
  | some type => .ok type
  | none => .error .exit

/-- `p_type_id`. -/
def typeIdAction (types_def : TypesDef) (type : TypeDef) (id : Text) :
    Except ParseFault (TypeId TypeDef) :=
  if checkVariantName types_def id true then .ok { type, id }
  else .error .exit

/-- `p_operatemember`. -/
def operatememberAction (type : TypeDef) (name : Text)
    (params : List (TypeId TypeDef)) : OperateMember TypeDef where
  name
  type
  params := params.reverse.map fun p => { p with id := renameParam p.id }

/-- `p_struct_def`. -/
def structDefAction (types_def : TypesDef) (name : Text)
    (members : List (TypeId TypeDef)) :
    Except ParseFault (TypeDef × TypesDef) :=
  if (getTypeDef types_def name).isSome then .error .exit
  else do
    let list ← createMembers TypeId.id [] members.reverse
    let st := TypeDef.struct name list
    return (st, st :: types_def)

/-- `p_interface_def`. -/
def interfaceDefAction (types_def : TypesDef) (name : Text)
    (opms : List (OperateMember TypeDef)) :
    Except ParseFault (TypeDef × TypesDef) :=
  if (getTypeDef types_def name).isSome then .error .exit
  else do
    let list ← createMembers OperateMember.name [] opms.reverse
    let ifc := TypeDef.interface name list
    return (ifc, ifc :: types_def)

/-- `p_sequence_def`. -/
def sequenceDefAction (types_def : TypesDef) (type : TypeDef)
    (name : Text) : Except ParseFault (TypeDef × TypesDef) :=
  if !checkVariantName types_def name false then .error .exit
  else if (getTypeDef types_def name).isSome then .error .exit
  else
    let seq := TypeDef.sequence name type
    .ok (seq, seq :: types_def)

/-- `p_dictionary_def`. -/
def dictionaryDefAction (types_def : TypesDef) (first second : TypeDef)
    (name : Text) : Except ParseFault (TypeDef × TypesDef) :=
  if !checkVariantName types_def name false then .error .exit
  else if (getTypeDef types_def name).isSome then .error .exit
  else
    let dict := TypeDef.dictionary name first second
    .ok (dict, dict :: types_def)

/-- A computation that leaves the table of types as it is. -/
def withTypes {α : Type} (types_def : TypesDef) (value : α → SymbolValue)
    (computation : Except ParseFault α) :
    Except ParseFault (SymbolValue × TypesDef) :=
  computation.map fun result => (value result, types_def)

/-- A new definition and the table with it. -/
def asDefination (computation : Except ParseFault (TypeDef × TypesDef)) :
    Except ParseFault (SymbolValue × TypesDef) :=
  computation.map fun result => (.defination result.1, result.2)

/-- The action of a production, by its number. -/
def slrAction (types_def : TypesDef) :
    Nat → List SymbolValue →
      Option (Except ParseFault (SymbolValue × TypesDef))
  | 1, [.definations defs] => some (.ok (.unit defs.reverse, types_def))
  | 2, [.defination d] => some (.ok (.definations [d], types_def))
  | 3, [.defination d, .definations defs] =>
      some (.ok (.definations (defs ++ [d]), types_def))
  | 4, [.defination d, .token _] => some (.ok (.defination d, types_def))
  | 5, [.defination d, .token _] => some (.ok (.defination d, types_def))
  | 6, [.defination d, .token _] => some (.ok (.defination d, types_def))
  | 7, [.defination d, .token _] => some (.ok (.defination d, types_def))
  -- `t[1]` of the empty production
  | 8, [] => some (.error .indexError)
  | 9, [.token _, .token _, .type type, .token _, .token name] =>
      some (asDefination (sequenceDefAction types_def type name))
  | 10, [.token _, .token _, .type first, .token _, .type second, .token _,
        .token name] =>
      some (asDefination (dictionaryDefAction types_def first second name))
  | 11, [.token _, .token name, .token _, .operatemembers opms, .token _] =>
      some (asDefination (interfaceDefAction types_def name opms))
  | 12, [.operatemember opm] => some (.ok (.operatemembers [opm], types_def))
  | 13, [.operatemember opm, .operatemembers opms] =>
      some (.ok (.operatemembers (opms ++ [opm]), types_def))
  | 14, [.type type, .token name, .token _, .typeIds params, .token _,
        .token _] =>
      some
        (.ok (.operatemember (operatememberAction type name params),
          types_def))
  | 15, [.typeId param] => some (.ok (.typeIds [param], types_def))
  | 16, [] => some (.ok (.typeIds [], types_def))
  | 17, [.typeId param, .token _, .typeIds params] =>
      some (.ok (.typeIds (params ++ [param]), types_def))
  | 18, [.type type] => some (.ok (.type type, types_def))
  | 19, [.token _, .token name, .token _, .typeIds members, .token _] =>
      some (asDefination (structDefAction types_def name members))
  | 20, [.typeId member] => some (.ok (.typeIds [member], types_def))
  | 21, [.typeId member, .typeIds members] =>
      some (.ok (.typeIds (members ++ [member]), types_def))
  | 22, [.typeId member, .token _] => some (.ok (.typeId member, types_def))
  | 23, [.type type, .token id] =>
      some (withTypes types_def .typeId (typeIdAction types_def type id))
  | 24, [.token name] =>
      some (withTypes types_def .type (typeAction types_def name))
  | _, _ => none

/-! ## The parser -/

def slrParser :
    Parser TokenType Nonterminal Token SymbolValue TypesDef ParseFault where
  rows := slrRows
  productions := slrProductions
  kind := Token.type
  tokenValue token := .token token.value
  act rule types_def values := slrAction types_def rule values

/-- `yacc.parse` of a list of tokens, up to the first syntax error, behind
which PLY would drop tokens and go on; with fuel for every round of its
loop. -/
def yaccParse (tokens : List Token) :
    Option (ParseEnd SymbolValue ParseFault) :=
  slrParser.loop (4 * tokens.length + 5)
    { stack := [], input := tokens, env := initBuiltinTypes }

/-- `syntax_result`, up to the first syntax error. -/
def syntaxResult (text : Text) : Option (ParseEnd SymbolValue ParseFault) :=
  yaccParse (tokens text)

end LocationServer

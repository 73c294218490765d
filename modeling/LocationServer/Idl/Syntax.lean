import LocationServer.Idl.Lexer
import LocationServer.Idl.Types

/-!
# The grammar and its actions (`mylex.py`, `lexparser.py`)

A parse tree follows the productions of the grammar.  Its actions run bottom
up and from left to right; they read and extend the table `types_def`, the
latest entry first, and end the program for a name that is taken or a type
that is missing.  A list of the grammar is built from its right end.
-/

namespace LocationServer

open Xml

/-! ## The objects of a unit -/

structure TypeId (T : Type) where
  type : T
  id : Text

structure OperateMember (T : Type) where
  name : Text
  type : T
  params : List (TypeId T)

/-- The objects that `types_def` holds; `void` is a `Builtin` that is not in
the table of the builtin types. -/
inductive TypeDef where
  | void
  | builtin (builtin : Builtin)
  | struct (name : Text) (list : List (TypeId TypeDef))
  | sequence (name : Text) (type : TypeDef)
  | dictionary (name : Text) (first second : TypeDef)
  | interface (name : Text) (list : List (OperateMember TypeDef))

def Builtin.name : Builtin → Text
  | .byte => "byte".toList
  | .bool => "bool".toList
  | .short => "short".toList
  | .int => "int".toList
  | .long => "long".toList
  | .float => "float".toList
  | .double => "double".toList
  | .string => "string".toList

/-- `TypeBase.getName`. -/
def TypeDef.name : TypeDef → Text
  | .void => "void".toList
  | .builtin basic => basic.name
  | .struct name _ => name
  | .sequence name _ => name
  | .dictionary name _ _ => name
  | .interface name _ => name

/-- The types that a definition mentions. -/
def TypeDef.references : TypeDef → List TypeDef
  | .void => []
  | .builtin _ => []
  | .struct _ list => list.map TypeId.type
  | .sequence _ type => [type]
  | .dictionary _ first second => [first, second]
  | .interface _ list =>
      list.flatMap fun opm => opm.type :: opm.params.map TypeId.type

/-! ## The table of types -/

abbrev TypesDef := List TypeDef

/-- `types_def` as the module leaves it. -/
def initBuiltinTypes : TypesDef :=
  .void ::
    ([.byte, .bool, .short, .int, .long, .float, .double, .string].map
      TypeDef.builtin)

def getTypeDef (types_def : TypesDef) (name : Text) : Option TypeDef :=
  types_def.find? fun type => type.name = name

def kwds : List Text :=
  ["struct".toList, "interface".toList, "sequence".toList,
    "dictionary".toList, "exception".toList, "void".toList]

def checkVariantName (types_def : TypesDef) (name : Text) (all : Bool) :
    Bool :=
  if kwds.contains name then false
  else if all && (getTypeDef types_def name).isSome then false
  else true

/-! ## Parse trees -/

/-- The two productions of a list that is not empty. -/
inductive Productions (α : Type) where
  | one (item : α)
  | more (item : α) (rest : Productions α)

/-- `type_id : type IDENTIFIER`, with `type : IDENTIFIER`. -/
structure TypeIdTree where
  type : Identifier
  id : Identifier

inductive OperateParams where
  | empty
  | one (param : TypeIdTree)
  | more (param : TypeIdTree) (rest : OperateParams)

structure OperateMemberTree where
  callreturn : Identifier
  name : Identifier
  params : OperateParams

inductive Defination where
  | struct (name : Identifier) (datamembers : Productions TypeIdTree)
  | interface (name : Identifier)
      (operatemembers : Productions OperateMemberTree)
  | sequence (type name : Identifier)
  | dictionary (first second name : Identifier)
  | empty

abbrev Definations := Productions Defination

/-! ### The tokens of a tree -/

def Identifier.token (id : Identifier) : Token :=
  { type := .identifier, value := id.text }

def literal (c : Char) : Token :=
  { type := .literal c, value := [c] }

def Productions.yield {α : Type} (yieldItem : α → List Token) :
    Productions α → List Token
  | .one item => yieldItem item
  | .more item rest => yieldItem item ++ rest.yield yieldItem

def TypeIdTree.yield (tree : TypeIdTree) : List Token :=
  [tree.type.token, tree.id.token]

def OperateParams.yield : OperateParams → List Token
  | .empty => []
  | .one param => param.yield
  | .more param rest => param.yield ++ literal ',' :: rest.yield

def OperateMemberTree.yield (tree : OperateMemberTree) : List Token :=
  [tree.callreturn.token, tree.name.token, literal '('] ++
    tree.params.yield ++ [literal ')', literal ';']

def Defination.yield : Defination → List Token
  | .struct name datamembers =>
      [{ type := .struct, value := "struct".toList }, name.token,
          literal '{'] ++
        datamembers.yield (fun member => member.yield ++ [literal ';']) ++
          [literal '}', literal ';']
  | .interface name operatemembers =>
      [{ type := .interface, value := "interface".toList }, name.token,
          literal '{'] ++
        operatemembers.yield OperateMemberTree.yield ++
          [literal '}', literal ';']
  | .sequence type name =>
      [{ type := .sequence, value := "sequence".toList }, literal '<',
        type.token, literal '>', name.token, literal ';']
  | .dictionary first second name =>
      [{ type := .dictionary, value := "dictionary".toList }, literal '<',
        first.token, literal ',', second.token, literal '>', name.token,
        literal ';']
  | .empty => []

/-! ## The actions -/

/-- What ends the program: `sys.exit`, or the index `t[1]` of an empty
definition. -/
inductive ParseFault where
  | exit
  | indexError
  deriving DecidableEq, Repr

/-- `p_type`, `p_callreturn`. -/
def pType (types_def : TypesDef) (name : Identifier) :
    Except ParseFault TypeDef :=
  match getTypeDef types_def name.text with
  | some type => .ok type
  | none => .error .exit

def pTypeId (types_def : TypesDef) (tree : TypeIdTree) :
    Except ParseFault (TypeId TypeDef) := do
  let type ← pType types_def tree.type
  if checkVariantName types_def tree.id.text true then
    return { type, id := tree.id.text }
  else .error .exit

/-- The actions of the productions of a list: the item first, then the rest,
to which the item is appended. -/
def pProductions {α β : Type} (pItem : α → Except ParseFault β) :
    Productions α → Except ParseFault (List β)
  | .one item => do
      let item ← pItem item
      return [item]
  | .more item rest => do
      let item ← pItem item
      let items ← pProductions pItem rest
      return items ++ [item]

/-- `p_operateparams`, `p_operateparams_2`. -/
def pOperateparams (types_def : TypesDef) :
    OperateParams → Except ParseFault (List (TypeId TypeDef))
  | .empty => .ok []
  | .one param => do
      let param ← pTypeId types_def param
      return [param]
  | .more param rest => do
      let param ← pTypeId types_def param
      let params ← pOperateparams types_def rest
      return params ++ [param]

/-- The names of parameters that `p_operatemember` changes. -/
def reservedParams : List Text :=
  ["d".toList, "p".toList, "m".toList, "r".toList, "idx".toList,
    "size".toList, "cr".toList, "container".toList, "o".toList,
    "prx".toList, "m2".toList]

def renameParam (id : Text) : Text :=
  if reservedParams.contains id then id ++ ['_'] else id

def pOperatemember (types_def : TypesDef) (tree : OperateMemberTree) :
    Except ParseFault (OperateMember TypeDef) := do
  let type ← pType types_def tree.callreturn
  let params ← pOperateparams types_def tree.params
  return {
    name := tree.name.text
    type
    params :=
      params.reverse.map fun p => { p with id := renameParam p.id } }

/-- `createDataMember` and `createOperateMember` for one item after the other:
a name that is there already is refused. -/
def createMembers {β : Type} (name : β → Text) :
    List β → List β → Except ParseFault (List β)
  | list, [] => .ok list
  | list, member :: members =>
      if (list.map name).contains (name member) then .error .exit
      else createMembers name (list ++ [member]) members

def pStructDef (types_def : TypesDef) (name : Identifier)
    (datamembers : Productions TypeIdTree) :
    Except ParseFault (TypeDef × TypesDef) := do
  let members ← pProductions (pTypeId types_def) datamembers
  if (getTypeDef types_def name.text).isSome then .error .exit
  else do
    let list ← createMembers TypeId.id [] members.reverse
    let st := TypeDef.struct name.text list
    return (st, st :: types_def)

def pInterfaceDef (types_def : TypesDef) (name : Identifier)
    (operatemembers : Productions OperateMemberTree) :
    Except ParseFault (TypeDef × TypesDef) := do
  let opms ← pProductions (pOperatemember types_def) operatemembers
  if (getTypeDef types_def name.text).isSome then .error .exit
  else do
    let list ← createMembers OperateMember.name [] opms.reverse
    let ifc := TypeDef.interface name.text list
    return (ifc, ifc :: types_def)

def pSequenceDef (types_def : TypesDef) (type name : Identifier) :
    Except ParseFault (TypeDef × TypesDef) := do
  let type ← pType types_def type
  if !checkVariantName types_def name.text false then .error .exit
  else if (getTypeDef types_def name.text).isSome then .error .exit
  else
    let seq := TypeDef.sequence name.text type
    return (seq, seq :: types_def)

def pDictionaryDef (types_def : TypesDef)
    (first second name : Identifier) :
    Except ParseFault (TypeDef × TypesDef) := do
  let first ← pType types_def first
  let second ← pType types_def second
  if !checkVariantName types_def name.text false then .error .exit
  else if (getTypeDef types_def name.text).isSome then .error .exit
  else
    let dict := TypeDef.dictionary name.text first second
    return (dict, dict :: types_def)

def pDefination (types_def : TypesDef) :
    Defination → Except ParseFault (TypeDef × TypesDef)
  | .struct name datamembers => pStructDef types_def name datamembers
  | .interface name operatemembers =>
      pInterfaceDef types_def name operatemembers
  | .sequence type name => pSequenceDef types_def type name
  | .dictionary first second name =>
      pDictionaryDef types_def first second name
  | .empty => .error .indexError

/-- `p_definations`, `p_definations_2`. -/
def pDefinations (types_def : TypesDef) :
    Definations → Except ParseFault (List TypeDef × TypesDef)
  | .one defination => do
      let (d, types_def) ← pDefination types_def defination
      return ([d], types_def)
  | .more defination rest => do
      let (d, types_def) ← pDefination types_def defination
      let (defs, types_def) ← pDefinations types_def rest
      return (defs ++ [d], types_def)

/-- `p_start`: the list of the unit. -/
def pStart (tree : Definations) : Except ParseFault (List TypeDef) := do
  let (defs, _) ← pDefinations initBuiltinTypes tree
  return defs.reverse

/-- `syntax_result` on a text that the grammar derives. -/
def Accepts (text : Text) (unit : List TypeDef) : Prop :=
  ∃ tree : Definations,
    tree.yield Defination.yield = tokens text ∧ pStart tree = .ok unit

end LocationServer

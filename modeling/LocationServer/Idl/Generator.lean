import LocationServer.Idl.Codec
import LocationServer.Idl.Syntax

/-!
# The generator (`tce2java_xml.py`)

What `createCodeFrame` emits is kept as far as names go: for each method the
names that come from the IDL (parameters, or the members that it reads and
writes), and the parameters and local variables that the generator declares on
its own.  One `StreamWriter` numbers the helper variables of all classes of a
unit; `varidx` is its counter.

Nothing is emitted for a dictionary.  Classes without a name from the IDL in a
method (constructors, `invoke`, the factories of a proxy) are left out.
-/

namespace LocationServer

open Xml

/-! ## The methods and the faults of the generator -/

structure JavaMethod where
  name : Text
  idlNames : List Text
  ownNames : List Text
  deriving DecidableEq

/-- What ends the generator: `sys.exit`, or an exception. -/
inductive GenFault where
  | exit
  | indexError
  | attributeError
  | typeError
  | unboundLocalError
  deriving DecidableEq, Repr

/-- The name of a helper variable. -/
def variantName (name : Text) (varidx : Nat) : Text :=
  name ++ '_' :: Nat.toDigits 10 varidx

/-- `newVariant`: the variable that is declared, and the counter behind it. -/
def newVariant (name : Text) (varidx : Nat) : List Text × Nat :=
  ([variantName name (varidx + 1)], varidx + 1)

/-- `GrammarXML.extractXMLTag` with what it does to a name without a tag. -/
def xmlTag (name : Text) : Except GenFault Text :=
  match (name.splitOn '_').reverse with
  | ['t'] :: tag :: _ => .ok tag
  | [['t']] => .error .indexError
  | _ => .error .exit

/-- A loop whose body emits something and moves the counter. -/
def forEach {α β : Type} (body : α → Nat → Except GenFault (List β × Nat)) :
    List α → Nat → Except GenFault (List β × Nat)
  | [], varidx => .ok ([], varidx)
  | item :: items, varidx => do
      let (emitted, varidx) ← body item varidx
      let (others, varidx) ← forEach body items varidx
      return (emitted ++ others, varidx)

/-! ## Structs and sequences -/

/-- The loop body of `marshall`, with `Builtin_Python.serial`. -/
def serialMember : TypeDef → Nat → Except GenFault (List Text × Nat)
  | .sequence _ _, varidx => .ok (newVariant "_b".toList varidx)
  | .dictionary _ _ _, varidx => .ok (newVariant "_b".toList varidx)
  | _, varidx => .ok ([], varidx)

/-- The loop body of `unmarshall`, with `Builtin_Python.unserial`: for a bool
it calls `idt_inc` on a string. -/
def unserialMember : TypeDef → Nat → Except GenFault (List Text × Nat)
  | .void, varidx => .ok (newVariant "_b".toList varidx)
  | .builtin basic, varidx =>
      if basic = .bool then .error .attributeError
      else .ok (newVariant "_b".toList varidx)
  | .sequence _ _, varidx => .ok (newVariant "_b".toList varidx)
  | .dictionary _ _ _, varidx => .ok (newVariant "_b".toList varidx)
  | _, varidx => .ok ([], varidx)

/-- `type.name == 'void'`: no other type has that name. -/
def TypeDef.isVoid : TypeDef → Bool
  | .void => true
  | _ => false

/-- The members that `marshall` and `unmarshall` use: one of type `void` is
not read and not written. -/
def usedMembers (list : List (TypeId TypeDef)) : List Text :=
  (list.filter fun m => !m.type.isVoid).map TypeId.id

def createCodeStruct (name : Text) (list : List (TypeId TypeDef))
    (varidx : Nat) : Except GenFault (List JavaMethod × Nat) := do
  let _ ← xmlTag name
  let (written, varidx) ←
    forEach serialMember (list.map TypeId.type) varidx
  let (read, varidx) ←
    forEach unserialMember (list.map TypeId.type) varidx
  return (
    [{ name := "marshall".toList
       idlNames := usedMembers list
       ownNames :=
         ["xml".toList, "complexes".toList] ++ written ++ ["s".toList] },
      { name := "unmarshall".toList
        idlNames := usedMembers list
        ownNames :=
          ["xmlnode".toList, "parentNode".toList, "r".toList,
            "nodes".toList] ++ read ++ ["e".toList] }],
    varidx)

def createCodeSequence (name : Text) (type : TypeDef) (varidx : Nat) :
    Except GenFault (List JavaMethod × Nat) := do
  let _ ← xmlTag name
  let (item, varidx) ← serialMember type varidx
  let _ ← xmlTag type.name
  let (v, varidx) := newVariant "_b".toList varidx
  let (c, varidx) ← serialMember type varidx
  return (
    [{ name := "marshall".toList
       idlNames := []
       ownNames := ["xml".toList, "item".toList] ++ item },
      { name := "unmarshall".toList
        idlNames := []
        ownNames :=
          ["xmlnode".toList, "parentNode".toList, "r".toList,
            "nodes".toList, "node".toList, "_p".toList] ++ v ++ c ++
              ["e".toList] }],
    varidx)

/-! ## Interfaces -/

section Interface

variable (m : OperateMember TypeDef)

def paramNames : List Text := m.params.map TypeId.id

def paramTypes : List TypeDef := m.params.map TypeId.type

/-- The method of the servant class. -/
def servantStub : JavaMethod where
  name := m.name
  idlNames := paramNames m
  ownNames := ["ctx".toList]

/-- The loop body over the parameters of a delegate. -/
def delegateParam (type : TypeDef) (varidx : Nat) :
    Except GenFault (List Text × Nat) := do
  let _ ← xmlTag type.name
  match type with
  | .sequence _ _ => return newVariant "_array".toList varidx
  | _ => return ([], varidx)

/-- What a delegate declares for the return value, apart from `cr`, `mr` and
`xml`. -/
def delegateResult (type : TypeDef) (varidx : Nat) :
    Except GenFault (List Text × Nat) :=
  match type with
  | .builtin _ => .error .exit
  | .sequence _ _ => .ok (newVariant "_c".toList varidx)
  | _ => .ok ([], varidx)

def delegateMethod (varidx : Nat) :
    Except GenFault (List JavaMethod × Nat) := do
  let (arrays, varidx) ← forEach delegateParam (paramTypes m) varidx
  let (result, varidx) ← delegateResult m.type varidx
  return (
    [{ name := m.name ++ "_delegate".toList
       idlNames := paramNames m
       ownNames :=
         ["m_".toList, "m".toList, "r".toList] ++
           (if m.params.isEmpty then []
            else ["node".toList, "nodes".toList]) ++
           arrays ++ ["servant".toList, "ctx".toList] ++
           (if m.type.isVoid then []
            else ["cr".toList, "mr".toList, "xml".toList]) ++ result }],
    varidx)

/-- The loop body over the parameters of a proxy method.  For a builtin type
the message has one place and two values. -/
def proxyParam : TypeDef → Nat → Except GenFault (List Text × Nat)
  | .void, _ => .error .typeError
  | .builtin _, _ => .error .typeError
  | .sequence _ _, varidx => .ok (newVariant "_c".toList varidx)
  | _, varidx => .ok ([], varidx)

/-- What a two-way method declares for its result, apart from `m2`. -/
def proxyResult : TypeDef → Nat → Except GenFault (List Text × Nat)
  | .void, varidx => .ok ([], varidx)
  | .sequence _ _, varidx =>
      let (v, varidx) := newVariant "_b".toList varidx
      let (c, varidx) := newVariant "_array".toList varidx
      .ok (v ++ c, varidx)
  | .struct _ _, varidx => .ok (newVariant "_b".toList varidx)
  | _, _ => .error .exit

/-- The two-way method and, for a void method, the one-way method, otherwise
the asynchronous one. -/
def proxyMethods (varidx : Nat) :
    Except GenFault (List JavaMethod × Nat) := do
  let (params, varidx) ← forEach proxyParam (paramTypes m) varidx
  let (result, varidx) ← proxyResult m.type varidx
  let (again, varidx) ← forEach proxyParam (paramTypes m) varidx
  return (
    [{ name := m.name
       idlNames := paramNames m
       ownNames :=
         ["timeout".toList, "r".toList, "m".toList] ++ params ++
           ["e".toList] ++
           (if m.type.isVoid then [] else ["m2".toList]) ++ result },
      if m.type.isVoid then
        { name := m.name ++ "_oneway".toList
          idlNames := paramNames m
          ownNames := ["r".toList, "m".toList] ++ again }
      else
        { name := m.name ++ "_async".toList
          idlNames := paramNames m
          ownNames := ["async".toList, "r".toList, "m".toList] ++ again }],
    varidx)

/-- The loop body of `callReturn`.  `p` is the variable that the loops over
the parameters have left behind. -/
def callReturnBranch (p : Option (TypeId TypeDef))
    (m : OperateMember TypeDef) (varidx : Nat) :
    Except GenFault (List Text × Nat) :=
  if m.type.isVoid then .ok ([], varidx)
  else do
    let _ ← xmlTag m.type.name
    match m.type with
    | .builtin _ => return ([], varidx)
    | _ =>
        match p with
        | none => .error .unboundLocalError
        | some p =>
            match p.type with
            | .sequence _ _ =>
                let (v, varidx) := newVariant "_b".toList varidx
                let (c, varidx) := newVariant "_array".toList varidx
                return (v ++ c, varidx)
            | _ => return newVariant "_b".toList varidx

end Interface

/-- The last parameter of the last method that has one. -/
def lastParam (list : List (OperateMember TypeDef)) :
    Option (TypeId TypeDef) :=
  (list.flatMap OperateMember.params).getLast?

def createCodeInterface (list : List (OperateMember TypeDef))
    (varidx : Nat) : Except GenFault (List JavaMethod × Nat) := do
  let (delegates, varidx) ← forEach delegateMethod list varidx
  let (proxies, varidx) ← forEach proxyMethods list varidx
  let (helpers, varidx) ←
    forEach (callReturnBranch (lastParam list)) list varidx
  return (
    list.map servantStub ++ delegates ++ proxies ++
      [{ name := "callReturn".toList
         idlNames := []
         ownNames :=
           ["m1_".toList, "m2_".toList, "nodes".toList, "node".toList,
             "r".toList, "m1".toList, "m2".toList] ++ helpers }],
    varidx)

/-! ## The unit -/

def createCodeFrame (e : TypeDef) (varidx : Nat) :
    Except GenFault (List JavaMethod × Nat) :=
  match e with
  | .interface _ list => createCodeInterface list varidx
  | .sequence name type => createCodeSequence name type varidx
  | .struct name list => createCodeStruct name list varidx
  | _ => .ok ([], varidx)

/-- The loop of `createCodes` over the unit. -/
def createCodes (unit : List TypeDef) : Except GenFault (List JavaMethod) := do
  let (emitted, _) ← forEach createCodeFrame unit 0
  return emitted

end LocationServer

import LocationServer.Idl.Types

/-!
# The emitted `marshall` and `unmarshall` (`tce2java_xml.py`)

A struct writes its builtin members as attributes.  Its other members would be
child elements, but the assignment of the end tag, which should append it,
throws everything else away.  A name in the emitted code means a local
variable when there is one, and the member otherwise.

The classes are those of types that javac accepts, as far as names go.
-/

namespace LocationServer

open Xml

/-- `Vector.toString` -/
def vectorToString (parts : List Text) : Text :=
  '[' :: [',', ' '].intercalate parts ++ [']']

/-- `newVariant("_b")` -/
def variant (varidx : Nat) : Text :=
  '_' :: 'b' :: '_' :: Nat.toDigits 10 varidx

/-- The local variables of the emitted `marshall` that a member name can
mean. -/
def xmlLocal : Text := ['x', 'm', 'l']

def complexesLocal : Text := ['c', 'o', 'm', 'p', 'l', 'e', 'x', 'e', 's']

/-- The text of the expression `<name>.toString()` in `marshall`. -/
def textOf (xml : Text) (complexes : List Text) (name written : Text) :
    Text :=
  if name = xmlLocal then xml
  else if name = complexesLocal then vectorToString complexes
  else written

namespace IdlType

/-- The local variables that the emitted `unmarshall` of a struct has for a
member. -/
def variants : IdlType → Nat
  | .builtin _ => 1
  | .struct _ _ _ => 0
  | .sequence _ _ => 1

/-- The local variables after a member, when `varidx` have been named. -/
def addLocal (type : IdlType) (locals : List Text) (varidx : Nat) :
    List Text :=
  if type.variants = 1 then variant (varidx + 1) :: locals else locals

def isSequence : IdlType → Bool
  | .sequence _ _ => true
  | _ => false

end IdlType

/-- The members that have a local variable in the emitted `marshall`. -/
def IdlMembers.sequences : IdlMembers → Nat
  | .nil => 0
  | .cons _ type rest => (if type.isSequence then 1 else 0) + rest.sequences

def IdlType.isStruct : IdlType → Bool
  | .struct _ _ _ => true
  | _ => false

def IdlMembers.names : IdlMembers → List Text
  | .nil => []
  | .cons name _ rest => name.text :: rest.names

mutual

/-- The generator comes to an end for the type, and its class compiles.  It
fails for a member of type `bool`, for a sequence of a builtin type and for a
name without a tag; the class of a sequence of sequences uses a variable in
its own initialisation. -/
def IdlType.emitted : IdlType → Bool
  | .builtin basic => basic ≠ .bool
  | .struct name _ members =>
      (extractXMLTag name.text).isSome && members.names.Nodup &&
        members.emitted
  | .sequence name item =>
      (extractXMLTag name.text).isSome && item.isStruct && item.emitted

def IdlMembers.emitted : IdlMembers → Bool
  | .nil => true
  | .cons _ type rest => type.emitted && rest.emitted

end

theorem emitted_struct {name : Identifier} {varidx : Nat}
    {members : IdlMembers}
    (emitted : (IdlType.struct name varidx members).emitted = true) :
    members.names.Nodup ∧ members.emitted = true := by
  rw [IdlType.emitted, Bool.and_eq_true, Bool.and_eq_true,
    decide_eq_true_eq] at emitted
  exact ⟨emitted.1.2, emitted.2⟩

section Emitted

variable [FloatTypes]

/-- `Builtin_Python.serial`: the text of a builtin member. -/
def IdlType.written : (type : IdlType) → type.Value → Option Text
  | .builtin basic, value => some (basic.type.toString value)
  | .struct _ _ _, _ => none
  | .sequence _ _, _ => none

mutual

def IdlType.marshall : (type : IdlType) → type.Value → Text
  -- Nothing is emitted for a builtin type alone.
  | .builtin basic, value => basic.type.toString value
  | .struct name varidx members, value =>
      let tag := (IdlType.struct name varidx members).tag
      let (xml, complexes) := members.serial ('<' :: tag, []) value
      if complexes.length = 0 then xml ++ ['/', '>']
      else
        let _ := complexes.foldl (· ++ ·) xml
        '<' :: '/' :: tag ++ ['>']
  | .sequence name item, values =>
      let tag := (IdlType.sequence name item).tag
      '<' :: tag ++ '>' :: values.flatMap item.marshall ++
        '<' :: '/' :: tag ++ ['>']

/-- The loop over the members, with the variables `xml` and `complexes`. -/
def IdlMembers.serial : (members : IdlMembers) → Text × List Text →
    members.Value → Text × List Text
  | .nil, found, _ => found
  | .cons name type rest, (xml, complexes), (value, others) =>
      match type.written value with
      | some text =>
          let text := textOf xml complexes name.text text
          rest.serial
            (xml ++ ' ' :: name.text ++ '=' :: '"' :: text ++ ['"'],
              complexes)
            others
      | none =>
          rest.serial (xml, complexes ++ [type.marshall value]) others

end

/-- `Builtin_Python.unserial`: the member keeps its value when there is no
attribute of its name or `valueOf` raises, or when its name means a local
variable. -/
def Builtin.unserial (basic : Builtin) (isLocal : Bool) (name : Text)
    (node : Element) : basic.type.Value :=
  if isLocal then basic.type.initial
  else
    (basic.type.valueOf (node.getAttribute name)).getD basic.type.initial

def IdlType.unserial : (type : IdlType) → (isLocal : Bool) → Text → Element →
    Option type.Value
  | .builtin basic, isLocal, name, node =>
      some (basic.unserial isLocal name node)
  | .struct _ _ _, _, _, _ => none
  | .sequence _ _, _, _, _ => none

mutual

/-- The rest of `unmarshall` into a new object, when the element has been
found; `none` is the result `false`. -/
def IdlType.readNode : (type : IdlType) → Element → Option type.Value
  -- Nothing is emitted for a builtin type alone.
  | .builtin basic, _ => some basic.type.initial
  | .struct _ varidx members, node =>
      members.readMembers [] (varidx + members.sequences) node
  | .sequence _ item, node =>
      (node.getElementsByTagName item.tag).mapM fun found =>
        if found.name = item.tag then item.readNode found else none

/-- The loop over the members, with the local variables declared so far. -/
def IdlMembers.readMembers : (members : IdlMembers) → List Text → Nat →
    Element → Option members.Value
  | .nil, _, _, _ => some ()
  | .cons name type rest, locals, varidx, node => do
      let locals := type.addLocal locals varidx
      let value ←
        match type.unserial (name.text ∈ locals) name.text node with
        | some value => some value
        | none =>
            (node.getElementsByTagName type.tag).head?.bind fun found =>
              type.readNode found
      let others ← rest.readMembers locals (varidx + type.variants) node
      some (value, others)

end

/-- `unmarshall(xmlnode, null)` -/
def IdlType.unmarshall (type : IdlType) (node : Element) :
    Option type.Value :=
  if node.name = type.tag then type.readNode node else none

end Emitted

end LocationServer

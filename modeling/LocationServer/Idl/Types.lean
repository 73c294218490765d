import LocationServer.Idl.Identifier
import Mathlib.Algebra.Order.Ring.Int

/-!
# Types of the interface definition language (`lexparser.py`)

Structs, sequences and builtin types, and their values in the emitted Java
code, where a builtin type stands for its boxed type.  The generator asks
`getTypeDefaultValue` for initial values, which has no case of Java: they are
read as those that Java gives such an object.  Dictionaries are left out:
nothing is emitted for them.
-/

namespace LocationServer

open Xml

/-! ## Builtin types -/

/-- A boxed type of Java: its `toString` and the `valueOf` of its class, which
raises for some texts. -/
structure BoxedType where
  Value : Type
  /-- The value that a member has before it is read. -/
  initial : Value
  toString : Value → Text
  valueOf : Text → Option Value

/-- A type of numbers: what is written is read back and needs no escape. -/
structure NumberType extends BoxedType where
  valueOf_toString : ∀ value, valueOf (toString value) = some value
  plain_toString : ∀ value, Plain (toString value)

/-- `Byte`, `Short`, `Integer` and `Long`. -/
def integerType (bits : Nat) : NumberType where
  Value := BitVec bits
  initial := 0
  toString value := Decimal.write value.toInt
  valueOf text :=
    (Decimal.read (-2 ^ (bits - 1)) (2 ^ (bits - 1) - 1) text).map
      (BitVec.ofInt bits)
  valueOf_toString value := by
    have lower := BitVec.le_toInt value
    have upper := @BitVec.toInt_lt bits value
    rw [Decimal.read_write lower (by omega)]
    simp
  plain_toString value := plain_write value.toInt

def stringType : BoxedType where
  Value := Text
  initial := []
  toString := id
  valueOf := some

def booleanType : BoxedType where
  Value := Bool
  initial := false
  toString value := (if value then "true" else "false").toList
  valueOf text := some (text.map Char.toLower = "true".toList)

/-- `Float` and `Double`. -/
class FloatTypes where
  float : NumberType
  double : NumberType

inductive Builtin where
  | byte
  | bool
  | short
  | int
  | long
  | float
  | double
  | string
  deriving DecidableEq, Repr

def Builtin.type [FloatTypes] : Builtin → BoxedType
  | .byte => (integerType 8).toBoxedType
  | .bool => booleanType
  | .short => (integerType 16).toBoxedType
  | .int => (integerType 32).toBoxedType
  | .long => (integerType 64).toBoxedType
  | .float => FloatTypes.float.toBoxedType
  | .double => FloatTypes.double.toBoxedType
  | .string => stringType

section Laws

variable [FloatTypes] {basic : Builtin}

/-- What is written of any other type is read back. -/
theorem Builtin.valueOf_toString (notBool : basic ≠ .bool)
    (value : basic.type.Value) :
    basic.type.valueOf (basic.type.toString value) = some value := by
  cases basic with
  | byte => exact (integerType 8).valueOf_toString value
  | bool => exact absurd rfl notBool
  | short => exact (integerType 16).valueOf_toString value
  | int => exact (integerType 32).valueOf_toString value
  | long => exact (integerType 64).valueOf_toString value
  | float => exact FloatTypes.float.valueOf_toString value
  | double => exact FloatTypes.double.valueOf_toString value
  | string => rfl

/-- Only a string can need an escape. -/
theorem Builtin.plain_toString (notBool : basic ≠ .bool)
    (notString : basic ≠ .string) (value : basic.type.Value) :
    Plain (basic.type.toString value) := by
  cases basic with
  | byte => exact (integerType 8).plain_toString value
  | bool => exact absurd rfl notBool
  | short => exact (integerType 16).plain_toString value
  | int => exact (integerType 32).plain_toString value
  | long => exact (integerType 64).plain_toString value
  | float => exact FloatTypes.float.plain_toString value
  | double => exact FloatTypes.double.plain_toString value
  | string => exact absurd rfl notString

theorem Builtin.plain_initial (notBool : basic ≠ .bool) :
    Plain (basic.type.toString basic.type.initial) := by
  by_cases isString : basic = .string
  · rw [isString]
    intro c member
    cases member
  · exact plain_toString notBool isString basic.type.initial

end Laws

/-! ## Structs and sequences -/

mutual

/-- A struct has the number of local variables that the generator has named
before it comes to its class (`varidx`). -/
inductive IdlType where
  | builtin (builtin : Builtin)
  | struct (name : Identifier) (varidx : Nat) (members : IdlMembers)
  | sequence (name : Identifier) (item : IdlType)

inductive IdlMembers where
  | nil
  | cons (name : Identifier) (type : IdlType) (rest : IdlMembers)

end

@[elab_as_elim, induction_eliminator]
theorem IdlMembers.induct {motive : IdlMembers → Prop} (nil : motive .nil)
    (cons :
      ∀ name type rest, motive rest → motive (.cons name type rest)) :
    ∀ members, motive members
  | .nil => nil
  | .cons name type rest =>
      cons name type rest (IdlMembers.induct nil cons rest)

/-- `GrammarXML.extractXMLTag`: the part of a name before `_t`; the generator
gives up when there is none. -/
def extractXMLTag (name : Text) : Option Text :=
  match (name.splitOn '_').reverse with
  | ['t'] :: tag :: _ => some tag
  | _ => none

theorem mem_of_mem_splitOn {text part : Text} {stop c : Char}
    (isPart : part ∈ text.splitOn stop) (member : c ∈ part) : c ∈ text := by
  obtain ⟨index, found⟩ := List.mem_iff_getElem?.mp isPart
  rw [← List.getElem?_intersperse_two_mul] at found
  have joined : [stop].intercalate (text.splitOn stop) = text :=
    List.intercalate_splitOn stop
  rw [← joined]
  exact List.mem_flatten.mpr ⟨part, List.mem_of_getElem? found, member⟩

theorem isIdentifierChar_of_tag (name : Identifier) :
    ∀ c ∈ (extractXMLTag name.text).getD [],
      isIdentifierChar c = true := by
  intro c member
  rw [extractXMLTag] at member
  split at member
  · rename_i tag others parts
    have isPart : tag ∈ name.text.splitOn '_' := by
      rw [← List.mem_reverse, parts]
      simp
    exact
      isIdentifierChar_of_mem name.valid (mem_of_mem_splitOn isPart member)
  · cases member

/-- The tag of the elements of a type. -/
def IdlType.tag : IdlType → Text
  | .builtin _ => []
  | .struct name _ _ => (extractXMLTag name.text).getD []
  | .sequence name _ => (extractXMLTag name.text).getD []

theorem isNameChar_of_tag (type : IdlType) :
    ∀ c ∈ type.tag, isNameChar c = true := by
  intro c member
  apply isNameChar_of_isIdentifierChar
  cases type with
  | builtin _ => cases member
  | struct name _ _ => exact isIdentifierChar_of_tag name c member
  | sequence name _ => exact isIdentifierChar_of_tag name c member

section Values

variable [FloatTypes]

mutual

@[reducible]
def IdlType.Value : IdlType → Type
  | .builtin builtin => builtin.type.Value
  | .struct _ _ members => members.Value
  | .sequence _ item => List item.Value

@[reducible]
def IdlMembers.Value : IdlMembers → Type
  | .nil => Unit
  | .cons _ type rest => type.Value × rest.Value

end

mutual

/-- A new object of the emitted class. -/
def IdlType.initial : (type : IdlType) → type.Value
  | .builtin builtin => builtin.type.initial
  | .struct _ _ members => members.initial
  | .sequence _ _ => []

def IdlMembers.initial : (members : IdlMembers) → members.Value
  | .nil => ()
  | .cons _ type rest => (type.initial, rest.initial)

end

end Values

end LocationServer

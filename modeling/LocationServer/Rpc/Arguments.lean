import LocationServer.Idl.RoundTrip
import LocationServer.Rpc.Envelope

/-!
# The arguments of a call (`createCodeInterface` of `tce2java_xml.py`)

The emitted proxy appends the texts of the arguments one after another; the
emitted delegate looks for each of them by its tag, anywhere in the message.
So an argument arrives unless an element with its tag stands somewhere in an
earlier argument and is read as another value.
-/

namespace LocationServer

open Xml

/-- A struct or sequence type that an interface uses, with the methods of its
emitted class. -/
structure ParameterType where
  Value : Type
  tag : Text
  /-- A new object. -/
  initial : Value
  marshall : Value → Text
  /-- `unmarshall(node, null)`, which returns `false` for another tag. -/
  unmarshall : Element → Option Value
  name_of_unmarshall :
    ∀ node value, unmarshall node = some value → node.name = tag

/-- The text of a value is one element, and it is read back from that. -/
def ParameterType.Inverse (type : ParameterType) : Prop :=
  ∀ value, ∃ found : Element,
    wholeContent (type.marshall value) = some [found.node] ∧
      type.unmarshall found = some value

/-- A tuple of arguments. -/
def Arguments : List ParameterType → Type
  | [] => Unit
  | type :: rest => type.Value × Arguments rest

/-- `m.xml += <argument>.marshall()` for each argument. -/
def marshallArguments : (params : List ParameterType) → Arguments params →
    Text
  | [], _ => []
  | type :: rest, (value, others) =>
      type.marshall value ++ marshallArguments rest others

/-- A parameter in the delegate: the first element with its tag, or a new
object when there is none; `none` when `unmarshall` returns `false`. -/
def ParameterType.decode (type : ParameterType) (root : Element) :
    Option type.Value :=
  match root.getElementsByTagName type.tag with
  | [] => some type.initial
  | node :: _ => type.unmarshall node

/-- What the servant is called with; `none` when it is not called. -/
def decodeArguments : (params : List ParameterType) → Element →
    Option (Arguments params)
  | [], _ => some ()
  | type :: rest, root => do
      let value ← type.decode root
      let others ← decodeArguments rest root
      some (value, others)

/-- The message that the emitted proxy of an interface sends for a method. -/
def proxyMessage (interface method : Identifier) (calltype sequence : Int32)
    {params : List ParameterType} (arguments : Arguments params) :
    RpcMessageXML where
  calltype := calltype
  sequence := sequence
  msgcls := interface.text
  msg := method.text
  xml := marshallArguments params arguments

/-- For each parameter, the first element with its tag in the arguments before
it, if there is one, is read as its own argument. -/
def Undisturbed : List Node → (params : List ParameterType) →
    Arguments params → Prop
  | _, [], _ => True
  | before, type :: rest, (value, others) =>
      (∀ first ∈ (Node.allNamed type.tag before).head?,
        type.unmarshall first = some value) ∧
      Undisturbed
        (before ++ (wholeContent (type.marshall value)).getD []) rest others

/-- The delegate calls the servant with the arguments that were given to the
proxy. -/
def Delivered (interface method : Identifier) (calltype sequence : Int32)
    (params : List ParameterType) (arguments : Arguments params) : Prop :=
  ∃ received root,
    RpcMessageXML.unmarshall
        (proxyMessage interface method calltype sequence
          arguments).marshall =
      some received ∧
    received.parentNode = some root ∧
    decodeArguments params root = some arguments

/-! ## The body of a call -/

section Body

variable {params : List ParameterType}

theorem head_marshallArguments
    (inverse : ∀ type ∈ params, type.Inverse)
    (arguments : Arguments params) :
    ∀ c ∈ (marshallArguments params arguments).head?, c = '<' := by
  cases params with
  | nil =>
      intro c isHead
      cases isHead
  | cons type rest =>
      obtain ⟨value, others⟩ := arguments
      obtain ⟨found, whole, -⟩ := inverse type (by simp) value
      obtain ⟨later, kind, -⟩ := element_of_wholeContent whole
      intro c isHead
      rw [marshallArguments, eq_cons_of_markup kind] at isHead
      exact (Option.some.inj isHead).symm

/-- The body of a call is content: the elements of its arguments. -/
theorem wholeContent_marshallArguments_cons {type : ParameterType}
    (inverse : ∀ other ∈ type :: params, other.Inverse)
    (value : type.Value) (others : Arguments params) {nodes : List Node}
    (later : wholeContent (marshallArguments params others) = some nodes) :
    wholeContent
        (marshallArguments (type :: params) (value, others)) =
      some ((wholeContent (type.marshall value)).getD [] ++ nodes) := by
  obtain ⟨found, whole, -⟩ := inverse type (by simp) value
  have head :=
    head_marshallArguments
      (fun other member => inverse other (List.mem_cons_of_mem type member))
      others
  rw [marshallArguments, wholeContent_append whole later head, whole]
  rfl

theorem exists_wholeContent_marshallArguments
    (inverse : ∀ type ∈ params, type.Inverse)
    (arguments : Arguments params) :
    ∃ nodes,
      wholeContent (marshallArguments params arguments) = some nodes := by
  induction params with
  | nil => exact ⟨[], rfl⟩
  | cons type rest inductionHypothesis =>
      obtain ⟨value, others⟩ := arguments
      obtain ⟨nodes, later⟩ :=
        inductionHypothesis
          (fun other member =>
            inverse other (List.mem_cons_of_mem type member))
          others
      exact
        ⟨_, wholeContent_marshallArguments_cons inverse value others later⟩

/-- A parameter is read from the elements of the arguments before it, or from
its own. -/
theorem decode_iff {type : ParameterType} (inverse : type.Inverse)
    (value : type.Value) (before after : List Node) {root : Element}
    (children :
      root.children =
        before ++ ((wholeContent (type.marshall value)).getD [] ++ after)) :
    type.decode root = some value ↔
      ∀ first ∈ (Node.allNamed type.tag before).head?,
        type.unmarshall first = some value := by
  obtain ⟨found, whole, decoded⟩ := inverse value
  have isTag := type.name_of_unmarshall found value decoded
  rw [whole] at children
  have named :
      root.getElementsByTagName type.tag =
        Node.allNamed type.tag before ++
          found :: (Node.allNamed type.tag found.children ++
            Node.allNamed type.tag after) := by
    rw [Element.getElementsByTagName, children, allNamed_append,
      ← allNamed_cons_of_name isTag]
    rfl
  rw [ParameterType.decode, named]
  cases Node.allNamed type.tag before with
  | nil => exact iff_of_true decoded (by simp)
  | cons first others => simp

/-- The arguments arrive exactly when none is disturbed by an earlier one. -/
theorem decodeArguments_iff (inverse : ∀ type ∈ params, type.Inverse)
    (arguments : Arguments params) (before : List Node) {root : Element}
    {nodes : List Node}
    (body :
      wholeContent (marshallArguments params arguments) = some nodes)
    (children : root.children = before ++ nodes) :
    decodeArguments params root = some arguments ↔
      Undisturbed before params arguments := by
  induction params generalizing before nodes with
  | nil => exact iff_of_true rfl trivial
  | cons type rest inductionHypothesis =>
      obtain ⟨value, others⟩ := arguments
      have inverseRest : ∀ other ∈ rest, other.Inverse :=
        fun other member =>
          inverse other (List.mem_cons_of_mem type member)
      obtain ⟨later, isLater⟩ :=
        exists_wholeContent_marshallArguments inverseRest others
      rw [wholeContent_marshallArguments_cons inverse value others isLater]
        at body
      obtain rfl := Option.some.inj body
      have here :=
        decode_iff (inverse type (by simp)) value before later children
      have further :=
        inductionHypothesis inverseRest others
          (before ++ (wholeContent (type.marshall value)).getD []) isLater
          (by rw [children, List.append_assoc])
      rw [Undisturbed, ← here, ← further, decodeArguments]
      constructor
      · intro decoded
        obtain ⟨first, isFirst, decoded⟩ := Option.bind_eq_some_iff.mp decoded
        obtain ⟨rest, isRest, same⟩ := Option.bind_eq_some_iff.mp decoded
        obtain ⟨rfl, rfl⟩ := Prod.mk.inj (Option.some.inj same)
        exact ⟨isFirst, isRest⟩
      · rintro ⟨isFirst, isRest⟩
        rw [isFirst, isRest]
        rfl

/-- What the servant is called with is decoded from the body. -/
theorem delivered_iff_decoded (interface method : Identifier)
    (calltype sequence : Int32) (arguments : Arguments params)
    {nodes : List Node}
    (body :
      wholeContent (marshallArguments params arguments) = some nodes) :
    Delivered interface method calltype sequence params arguments ↔
      decodeArguments params
          ((proxyMessage interface method calltype sequence arguments).root
            nodes) =
        some arguments := by
  have arrives :=
    @unmarshall_marshall
      (proxyMessage interface method calltype sequence arguments)
      interface.valid method.valid nodes body
  constructor
  · rintro ⟨received, root, arrived, isRoot, decoded⟩
    rw [← Option.some.inj (arrives.symm.trans arrived)] at isRoot
    rw [← Option.some.inj isRoot] at decoded
    exact decoded
  · intro decoded
    exact ⟨_, _, arrives, rfl, decoded⟩

/-- A call arrives with its arguments exactly when none of them is disturbed
by an earlier one. -/
theorem delivered_iff_undisturbed (interface method : Identifier)
    (calltype sequence : Int32)
    (inverse : ∀ type ∈ params, type.Inverse)
    (arguments : Arguments params) :
    Delivered interface method calltype sequence params arguments ↔
      Undisturbed [] params arguments := by
  obtain ⟨nodes, body⟩ :=
    exists_wholeContent_marshallArguments inverse arguments
  calc
    Delivered interface method calltype sequence params arguments
        ↔ decodeArguments params
            ((proxyMessage interface method calltype sequence
              arguments).root nodes) =
          some arguments :=
      delivered_iff_decoded interface method calltype sequence arguments body
    _ ↔ Undisturbed [] params arguments :=
      decodeArguments_iff inverse arguments [] body rfl

end Body

/-! ## Parameters of emitted types -/

section Emitted

variable [FloatTypes]

/-- A type as the type of a parameter. -/
def IdlType.parameterType (type : IdlType) : ParameterType where
  Value := type.Value
  tag := type.tag
  initial := type.initial
  marshall := type.marshall
  unmarshall := type.unmarshall
  name_of_unmarshall := by
    intro node value decoded
    rw [IdlType.unmarshall, Option.ite_none_right_eq_some] at decoded
    exact decoded.1

theorem inverse_parameterType {type : IdlType}
    (complex : type.isBuiltin = false) (emitted : type.emitted = true)
    (legible : ∀ value : type.Value, type.Legible value) :
    type.parameterType.Inverse :=
  fun value =>
    (isElement_of_legible complex emitted (legible value)).wholeContent

end Emitted

/-- Two different arguments of one type do not arrive. -/
theorem not_undisturbed_of_ne {type : ParameterType}
    (inverse : type.Inverse) {value other : type.Value}
    (different : value ≠ other) :
    ¬ Undisturbed [] [type, type] (value, other, ()) := by
  rintro ⟨-, disturbed, -⟩
  obtain ⟨found, whole, decoded⟩ := inverse value
  have isTag := type.name_of_unmarshall found value decoded
  rw [whole, List.nil_append, Option.getD_some,
    allNamed_cons_of_name isTag] at disturbed
  have same := disturbed found rfl
  rw [decoded] at same
  exact different (Option.some.inj same)

/-- The type `ts_gps_p_GPS_t`, with its time alone. -/
def gpsType : IdlType :=
  .struct ⟨"ts_gps_p_GPS_t".toList, by decide⟩ 0
    (.cons ⟨"time".toList, by decide⟩ (.builtin .int) .nil)

def trackType : IdlType :=
  .sequence ⟨"ts_gps_p_Track_t".toList, by decide⟩ gpsType

theorem legible_gpsType (value : @IdlType.Value zeroTypes gpsType) :
    @IdlType.Legible zeroTypes gpsType value := by
  obtain ⟨time, rest⟩ := value
  have kept :=
    @Builtin.kept_of_plain zeroTypes .int
      ("time".toList ∈ (IdlType.builtin .int).addLocal [] 0) "time".toList
      time (by decide) (by decide +kernel) (by decide)
      (@Builtin.plain_toString zeroTypes .int (by decide) (by decide) time)
  exact ⟨by decide +kernel, kept, trivial⟩

theorem inverse_gpsType :
    (@IdlType.parameterType zeroTypes gpsType).Inverse :=
  @inverse_parameterType zeroTypes gpsType rfl (by decide +kernel)
    legible_gpsType

theorem inverse_trackType :
    (@IdlType.parameterType zeroTypes trackType).Inverse :=
  @inverse_parameterType zeroTypes trackType rfl (by decide +kernel)
    fun _ => ⟨by decide +kernel, fun value _ => legible_gpsType value⟩

/-- A position and a list of positions arrive in this order. -/
theorem delivered_position_and_track :
    Delivered ⟨"ts".toList, by decide⟩ ⟨"gps".toList, by decide⟩ callBit 1
      [@IdlType.parameterType zeroTypes gpsType,
        @IdlType.parameterType zeroTypes trackType]
      (((5 : BitVec 32), ()),
        [((7 : BitVec 32), ()), ((9 : BitVec 32), ())], ()) := by
  have inverse :
      ∀ type ∈
          [@IdlType.parameterType zeroTypes gpsType,
            @IdlType.parameterType zeroTypes trackType],
        type.Inverse :=
    List.forall_mem_cons.mpr
      ⟨inverse_gpsType, List.forall_mem_singleton.mpr inverse_trackType⟩
  apply
    (delivered_iff_undisturbed ⟨"ts".toList, by decide⟩
      ⟨"gps".toList, by decide⟩ callBit 1 inverse _).mpr
  have noTrack :
      (Node.allNamed "Track".toList
        ((wholeContent
          (@IdlType.marshall zeroTypes gpsType
            ((5 : BitVec 32), ()))).getD [])).length = 0 := by
    decide +kernel
  refine ⟨?_, ?_, trivial⟩
  · intro first isFirst
    cases isFirst
  · intro first isFirst
    have none := congrArg List.head? (List.length_eq_zero_iff.mp noTrack)
    cases isFirst.symm.trans none

/-- Two positions do not arrive as they are. -/
theorem not_delivered_two_positions :
    ¬ ∀ (interface method : Identifier) (calltype sequence : Int32)
        (params : List ParameterType) (arguments : Arguments params),
      (∀ type ∈ params, type.Inverse) →
        Delivered interface method calltype sequence params arguments := by
  intro always
  have inverse :
      ∀ type ∈
          [@IdlType.parameterType zeroTypes gpsType,
            @IdlType.parameterType zeroTypes gpsType],
        type.Inverse :=
    List.forall_mem_cons.mpr
      ⟨inverse_gpsType, List.forall_mem_singleton.mpr inverse_gpsType⟩
  have delivered :=
    always ⟨"ts".toList, by decide⟩ ⟨"gps".toList, by decide⟩ callBit 1
      [@IdlType.parameterType zeroTypes gpsType,
        @IdlType.parameterType zeroTypes gpsType]
      (((1 : BitVec 32), ()), ((2 : BitVec 32), ()), ()) inverse
  obtain ⟨nodes, body⟩ := exists_wholeContent_marshallArguments inverse _
  have decoded := (delivered_iff_decoded _ _ _ _ _ body).mp delivered
  have undisturbed :=
    (decodeArguments_iff inverse _ [] body rfl).mp decoded
  have different : (1 : BitVec 32) ≠ 2 := by decide
  refine not_undisturbed_of_ne inverse_gpsType ?_ undisturbed
  intro same
  exact different (Prod.mk.inj same).1

end LocationServer

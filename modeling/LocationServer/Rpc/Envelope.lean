import LocationServer.Idl.Identifier

/-!
# The envelope of an RPC message (`RpcMessageXML.java`)

`marshall` writes the interface and the method of a message into the
attributes `msgcls` and `msg`, and the method into `type` as well;
`unmarshall` takes both from `type`, and the interface is `Terminal` when
there is no dot in it.  So a message keeps its interface, and a call reaches
the servant that it is meant for, exactly when that is `Terminal`.

A packet is the text that its bytes stand for in UTF-8.
-/

namespace LocationServer

open Xml

/-! ## Strings of Java -/

namespace Java

/-- `String.trim` -/
def trim (text : Text) : Text :=
  (text.dropWhile (· ≤ ' ')).rdropWhile (· ≤ ' ')

/-- `Integer.valueOf` -/
def integerValueOf (text : Text) : Option Int32 :=
  (Decimal.read Int32.minValue.toInt Int32.maxValue.toInt text).map
    Int32.ofInt

/-- `text.split("\\.")`, which leaves out empty parts at the end, unless there
is no dot at all. -/
def split (text : Text) : List Text :=
  if '.' ∈ text then (text.splitOn '.').rdropWhile (· = []) else [text]

theorem integerValueOf_trim_write (n : Int32) :
    integerValueOf (trim (Decimal.write n.toInt)) = some n := by
  have untrimmed :
      trim (Decimal.write n.toInt) = Decimal.write n.toInt := by
    apply Decimal.trim_write
    intro c printed
    rcases printed with rfl | digit
    · decide
    · have digit := Char.isDigit_iff_toNat.mp digit
      simp only [decide_eq_false_iff_not, Char.not_le]
      exact Nat.lt_of_lt_of_le (by decide) digit.1
  rw [untrimmed, integerValueOf,
    Decimal.read_write n.minValue_le_toInt n.toInt_le]
  simp

end Java

/-! ## Messages -/

/-- `RpcMessage.CALL` -/
def callBit : Int32 := 0x01

/-- `RpcMessage.RETURN` -/
def returnBit : Int32 := 0x02

/-- `RpcMessage.ONEWAY` -/
def onewayBit : Int32 := 0x20

structure RpcMessageXML where
  calltype : Int32
  sequence : Int32 := 0
  msgcls : Text
  msg : Text
  xml : Text := []
  parentNode : Option Element := none

def naviMsg : Text := "NaviMSG".toList

def terminal : Text := "Terminal".toList

/-- The attributes of the envelope. -/
def RpcMessageXML.header (message : RpcMessageXML) : List (Text × Text) :=
  [("msgcls".toList, message.msgcls), ("msg".toList, message.msg),
    ("type".toList, message.msg),
    ("calltype".toList, Decimal.write message.calltype.toInt),
    ("sequence".toList, Decimal.write message.sequence.toInt)]

def RpcMessageXML.marshall (message : RpcMessageXML) : Text :=
  '<' :: (naviMsg ++ (renderAttributes message.header ++
    '>' :: (message.xml ++ '<' :: '/' :: (naviMsg ++ ['>']))))

/-- The interface and the method that `type` stands for. -/
def target (type : Text) : Option (Text × Text) :=
  let clsMsg :=
    if (Java.split type).length < 2 then terminal ++ '.' :: type else type
  match Java.split clsMsg with
  | msgcls :: msg :: _ => some (msgcls, msg)
  | _ => none

/-- `none` is the null of every failure. -/
def RpcMessageXML.unmarshall (d : Text) : Option RpcMessageXML := do
  let root ← document d
  if root.name ≠ naviMsg then none
  else do
    let calltype ←
      Java.integerValueOf (Java.trim (root.getAttribute "calltype".toList))
    let seq ←
      Java.integerValueOf (Java.trim (root.getAttribute "sequence".toList))
    let (msgcls, msg) ← target (root.getAttribute "type".toList)
    some
      { calltype, sequence := seq, msgcls, msg, parentNode := some root }

/-! ## Reading an envelope -/

/-- A method name alone stands for a method of `Terminal`. -/
theorem target_of_isIdentifier {msg : Text}
    (identifier : isIdentifier msg = true) :
    target msg = some (terminal, msg) := by
  have noDot := not_mem_of_isIdentifier identifier
  have alone : Java.split msg = [msg] := if_neg noDot
  have nonempty : msg ≠ [] := by
    rintro rfl
    cases identifier
  have both : Java.split (terminal ++ '.' :: msg) = [terminal, msg] := by
    rw [Java.split, if_pos (by simp),
      List.splitOn_append_cons_self_of_not_mem (by decide),
      List.splitOn_eq_singleton noDot]
    apply List.rdropWhile_eq_self_iff.mpr
    intro _
    simpa using nonempty
  have short : [msg].length < 2 := Nat.lt_succ_self 1
  rw [target, alone, if_pos short, both]

section Header

variable {message : RpcMessageXML}

theorem header_names :
    ∀ pair ∈ message.header, isName pair.1 = true := by
  simp only [RpcMessageXML.header, List.forall_mem_cons]
  decide

theorem header_distinct : (message.header.map Prod.fst).Nodup := by
  simp only [RpcMessageXML.header, List.map_cons, List.map_nil]
  decide

theorem header_plain (msgcls : isIdentifier message.msgcls = true)
    (msg : isIdentifier message.msg = true) :
    ∀ pair ∈ message.header, Plain pair.2 := by
  simp only [RpcMessageXML.header, List.forall_mem_cons]
  exact
    ⟨plain_of_isIdentifier msgcls, plain_of_isIdentifier msg,
      plain_of_isIdentifier msg, plain_write _, plain_write _, by simp⟩

/-- The root of the document that a message is sent as. -/
def RpcMessageXML.root (message : RpcMessageXML) (children : List Node) :
    Element :=
  ⟨naviMsg, message.header, children⟩

theorem document_marshall (msgcls : isIdentifier message.msgcls = true)
    (msg : isIdentifier message.msg = true) {children : List Node}
    (whole : wholeContent message.xml = some children) :
    document message.marshall = some (message.root children) := by
  rw [RpcMessageXML.marshall]
  apply document_of_element (by decide)
  apply element_render (by decide) header_names header_distinct
    (header_plain msgcls msg) whole
  simp only [List.length_append, List.length_cons]
  omega

/-- What becomes of a message: its interface is `Terminal`. -/
theorem unmarshall_marshall (msgcls : isIdentifier message.msgcls = true)
    (msg : isIdentifier message.msg = true) {children : List Node}
    (whole : wholeContent message.xml = some children) :
    RpcMessageXML.unmarshall message.marshall =
      some
        { calltype := message.calltype
          sequence := message.sequence
          msgcls := terminal
          msg := message.msg
          parentNode := some (message.root children) } := by
  have calltype :
      (message.root children).getAttribute "calltype".toList =
        Decimal.write message.calltype.toInt := rfl
  have sequence :
      (message.root children).getAttribute "sequence".toList =
        Decimal.write message.sequence.toInt := rfl
  have type :
      (message.root children).getAttribute "type".toList = message.msg :=
    rfl
  have isRoot : ¬ (message.root children).name ≠ naviMsg := by
    simp [RpcMessageXML.root]
  rw [RpcMessageXML.unmarshall, document_marshall msgcls msg whole]
  simp only [Option.bind_eq_bind, Option.bind_some]
  rw [if_neg isRoot, calltype, sequence, type,
    Java.integerValueOf_trim_write, Java.integerValueOf_trim_write,
    target_of_isIdentifier msg]
  rfl

end Header

/-! ## Dispatch (`RpcCommAdapterXML.java`) -/

/-- The delegate of a servant.  An emitted delegate has one operation for each
method of its interface. -/
structure RpcServantDelegate (ω : Type u) where
  /-- The name of the interface. -/
  index : Text
  operations : List (Text × ω)

/-- The emitted `invoke`: the first operation with the name of the method is
called with the message; there may be none. -/
def RpcServantDelegate.invoke {ω : Type u} (delegate : RpcServantDelegate ω)
    (message : RpcMessageXML) : Option ω :=
  delegate.operations.lookup message.msg

structure RpcCommAdapterXML (ω : Type u) where
  /-- `_servants`, a table from interface names. -/
  servants : List (Text × RpcServantDelegate ω) := []

namespace RpcCommAdapterXML

variable {ω : Type u}

def addServant (adapter : RpcCommAdapterXML ω)
    (delegate : RpcServantDelegate ω) : RpcCommAdapterXML ω :=
  { servants :=
      (delegate.index, delegate) ::
        adapter.servants.filter (·.1 ≠ delegate.index) }

/-- The operation that is called with the message.  There is none for an
unknown interface: `doError` does nothing. -/
def dispatchMsg (adapter : RpcCommAdapterXML ω) (message : RpcMessageXML) :
    Option ω :=
  if message.calltype &&& callBit ≠ 0 then
    (adapter.servants.lookup message.msgcls).bind fun delegate =>
      delegate.invoke message
  else none

/-- The method of an interface, as its servant has it. -/
def operation (adapter : RpcCommAdapterXML ω) (interface method : Text) :
    Option ω :=
  (adapter.servants.lookup interface).bind fun delegate =>
    delegate.operations.lookup method

theorem dispatchMsg_call (adapter : RpcCommAdapterXML ω)
    {message : RpcMessageXML} (call : message.calltype &&& callBit ≠ 0) :
    adapter.dispatchMsg message =
      adapter.operation message.msgcls message.msg := by
  rw [dispatchMsg, if_pos call, operation]
  rfl

end RpcCommAdapterXML

/-- `unmarshall` gives back what `marshall` was applied to, with the body as
the content of the root. -/
def RpcMessageXML.RoundTrips (message : RpcMessageXML)
    (children : List Node) : Prop :=
  ∃ received root,
    RpcMessageXML.unmarshall message.marshall = some received ∧
    received.msgcls = message.msgcls ∧ received.msg = message.msg ∧
    received.calltype = message.calltype ∧
    received.sequence = message.sequence ∧
    received.parentNode = some root ∧ root.children = children

/-- Whatever servants there are, the message that arrives is given to the
method that the sent one names. -/
def RpcMessageXML.Reaches (message : RpcMessageXML) : Prop :=
  ∃ received,
    RpcMessageXML.unmarshall message.marshall = some received ∧
    ∀ (ω : Type) (adapter : RpcCommAdapterXML ω),
      adapter.dispatchMsg received =
        adapter.operation message.msgcls message.msg

section RoundTrip

variable {message : RpcMessageXML} {children : List Node}

theorem roundTrips_iff_terminal (msgcls : isIdentifier message.msgcls = true)
    (msg : isIdentifier message.msg = true)
    (whole : wholeContent message.xml = some children) :
    message.RoundTrips children ↔ message.msgcls = terminal := by
  have arrives := unmarshall_marshall msgcls msg whole
  constructor
  · rintro ⟨received, root, arrived, sameInterface, -⟩
    rw [arrives] at arrived
    rw [← sameInterface, ← Option.some.inj arrived]
  · intro isTerminal
    exact
      ⟨_, _, arrives, isTerminal.symm, rfl, rfl, rfl, rfl, rfl⟩

/-- An adapter that has one servant, with one method. -/
def RpcCommAdapterXML.only (interface method : Text) :
    RpcCommAdapterXML Unit :=
  RpcCommAdapterXML.addServant {} ⟨interface, [(method, ())]⟩

theorem RpcCommAdapterXML.operation_only_isSome_iff
    (interface method other : Text) :
    ((only interface method).operation other method).isSome = true ↔
      other = interface := by
  by_cases same : other = interface
  · simp [only, addServant, operation, same]
  · have unknown : (other == interface) = false := beq_false_of_ne same
    simp [only, addServant, operation, same, List.lookup_cons, unknown]

theorem reaches_iff_terminal (msgcls : isIdentifier message.msgcls = true)
    (msg : isIdentifier message.msg = true)
    (whole : wholeContent message.xml = some children)
    (call : message.calltype &&& callBit ≠ 0) :
    message.Reaches ↔ message.msgcls = terminal := by
  have arrives := unmarshall_marshall msgcls msg whole
  constructor
  · rintro ⟨received, arrived, reached⟩
    have same := Option.some.inj (arrives.symm.trans arrived)
    have sameClass : received.msgcls = terminal := by rw [← same]
    have sameMsg : received.msg = message.msg := by rw [← same]
    have stillCall : received.calltype &&& callBit ≠ 0 := by
      rw [← same]
      exact call
    have alone :=
      reached Unit (RpcCommAdapterXML.only terminal message.msg)
    rw [RpcCommAdapterXML.dispatchMsg_call _ stillCall, sameClass,
      sameMsg] at alone
    have found := congrArg Option.isSome alone
    apply
      (RpcCommAdapterXML.operation_only_isSome_iff terminal message.msg
        message.msgcls).mp
    rw [← found]
    exact
      (RpcCommAdapterXML.operation_only_isSome_iff terminal message.msg
        terminal).mpr rfl
  · intro isTerminal
    refine ⟨_, arrives, ?_⟩
    intro ω adapter
    rw [isTerminal]
    exact adapter.dispatchMsg_call call

/-- A message comes back with its interface, and a call reaches the servant
that it is meant for, exactly when that is `Terminal`. -/
theorem RpcMessageXML.roundTrips_and_reaches_iff
    (msgcls : isIdentifier message.msgcls = true)
    (msg : isIdentifier message.msg = true)
    (whole : wholeContent message.xml = some children) :
    (message.RoundTrips children ↔ message.msgcls = terminal) ∧
      (message.calltype &&& callBit ≠ 0 →
        (message.Reaches ↔ message.msgcls = terminal)) :=
  ⟨roundTrips_iff_terminal msgcls msg whole,
    reaches_iff_terminal msgcls msg whole⟩

theorem RpcMessageXML.roundTrips_notify :
    (RpcMessageXML.mk callBit 1 terminal "notify".toList
      "<Event/>".toList none).RoundTrips
        [.element "Event".toList [] []] ∧
      (RpcMessageXML.mk callBit 1 terminal "notify".toList
        "<Event/>".toList none).Reaches := by
  have whole :
      wholeContent "<Event/>".toList =
        some [.element "Event".toList [] []] :=
    @wholeContent_of_element "Event".toList "/>".toList
      ⟨"Event".toList, [], []⟩ (by decide)
      (@element_render_empty "Event".toList (by decide) [] (by simp)
        (by simp) (by simp) [] 7)
  have settled :=
    @roundTrips_and_reaches_iff
      (RpcMessageXML.mk callBit 1 terminal "notify".toList
        "<Event/>".toList none)
      [.element "Event".toList [] []] (by decide) (by decide) whole
  exact
    ⟨settled.1.mpr (by decide), (settled.2 (by decide)).mpr (by decide)⟩

/-- The calls of the test program do not come back as what they are. -/
theorem RpcMessageXML.not_roundTrips_verify :
    ¬ ∀ (message : RpcMessageXML) (children : List Node),
      isIdentifier message.msgcls = true →
      isIdentifier message.msg = true →
      wholeContent message.xml = some children →
        message.RoundTrips children := by
  intro always
  obtain ⟨received, root, arrived, sameInterface, -⟩ :=
    always ⟨callBit, 1, "ts".toList, "verify".toList, [], none⟩ []
      (by decide) (by decide) rfl
  have arrives :=
    @unmarshall_marshall
      ⟨callBit, 1, "ts".toList, "verify".toList, [], none⟩
      (by decide) (by decide) [] rfl
  rw [← Option.some.inj (arrives.symm.trans arrived)] at sameInterface
  exact absurd sameInterface (by decide)

end RoundTrip

end LocationServer

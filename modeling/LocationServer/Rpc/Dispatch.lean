import LocationServer.Rpc.Arguments

/-!
# The handling of a received call (`RpcConnection.java`, emitted delegates)

A received call passes the connection, the adapter and the delegate of the
servant before the servant is called, and only a method with a result sends a
message back.  Each of the layers gives up in silence: `doError` of the
adapter does nothing, and the `false` that `invoke` and the emitted methods of
a delegate return is not looked at.
-/

namespace LocationServer

open Xml

/-- A method of an interface with what its servant does.  A `void` method has
no result type; `serve` is `none` when the servant raises, or returns null
where a result is written. -/
structure ServantOperation where
  name : Identifier
  params : List ParameterType
  result : Option ParameterType
  serve : Arguments params →
    Option (result.elim Unit ParameterType.Value)

/-- The emitted delegate of a servant: its operations by name. -/
def emittedDelegate (interface : Identifier)
    (operations : List ServantOperation) :
    RpcServantDelegate ServantOperation where
  index := interface.text
  operations := operations.map fun operation =>
    (operation.name.text, operation)

/-- A message from `unmarshall`, which has set the root of its document. -/
structure ReceivedMessage extends RpcMessageXML where
  root : Element
  hasRoot : parentNode = some root

theorem exists_received {packet : Text} {message : RpcMessageXML}
    (received : RpcMessageXML.unmarshall packet = some message) :
    ∃ found : ReceivedMessage, found.toRpcMessageXML = message := by
  obtain ⟨root, -, received⟩ := Option.bind_eq_some_iff.mp received
  rw [Option.ite_none_left_eq_some] at received
  obtain ⟨calltype, -, received⟩ :=
    Option.bind_eq_some_iff.mp received.2
  obtain ⟨seq, -, received⟩ := Option.bind_eq_some_iff.mp received
  obtain ⟨names, -, same⟩ := Option.bind_eq_some_iff.mp received
  obtain rfl := Option.some.inj same
  exact ⟨⟨_, root, rfl⟩, rfl⟩

/-- The message that a result is sent back in. -/
def RpcMessageXML.returnOf (message : RpcMessageXML) (xml : Text) :
    RpcMessageXML where
  calltype := returnBit
  sequence := message.sequence
  msgcls := message.msgcls
  msg := message.msg ++ "Resp".toList
  xml := xml

/-- The text of a result, for a method that has one. -/
def marshallResult : (result : Option ParameterType) →
    result.elim Unit ParameterType.Value → Option Text
  | none, _ => none
  | some type, value => some (type.marshall value)

/-- The emitted method of a delegate: the messages that it sends. -/
def ServantOperation.delegate (operation : ServantOperation)
    (message : ReceivedMessage) : List RpcMessageXML :=
  match decodeArguments operation.params message.root with
  | none => []
  | some arguments =>
      match operation.serve arguments with
      | none => []
      | some cr =>
          if message.calltype &&& onewayBit ≠ 0 then []
          else
            match marshallResult operation.result cr with
            | none => []
            | some xml => [message.returnOf xml]

/-- `RpcConnection.dispatchMsg`: the messages that are sent.  An adapter need
not be attached, and `doReturnMsg` sends nothing. -/
def dispatchReceived (adapter : Option (RpcCommAdapterXML ServantOperation))
    (message : ReceivedMessage) : List RpcMessageXML :=
  if message.calltype &&& callBit ≠ 0 then
    match adapter with
    | none => []
    | some attached =>
        match attached.dispatchMsg message.toRpcMessageXML with
        | none => []
        | some operation => operation.delegate message
  else []

/-- One message is sent, which is a `RETURN` with the number of the call. -/
def Answered (adapter : Option (RpcCommAdapterXML ServantOperation))
    (message : ReceivedMessage) : Prop :=
  ∃ reply, dispatchReceived adapter message = [reply] ∧
    reply.calltype = returnBit ∧ reply.sequence = message.sequence

/-- The method has a result, the arguments can be decoded and the servant
returns a result. -/
def ServantOperation.Answers (operation : ServantOperation)
    (root : Element) : Prop :=
  operation.result.isSome = true ∧
    ∃ arguments,
      decodeArguments operation.params root = some arguments ∧
        (operation.serve arguments).isSome = true

/-- An adapter is attached, and the interface and the method are known to
it. -/
def Answerable (adapter : Option (RpcCommAdapterXML ServantOperation))
    (message : ReceivedMessage) : Prop :=
  ∃ attached operation, adapter = some attached ∧
    attached.operation message.msgcls message.msg = some operation ∧
    operation.Answers message.root

section Handling

variable {adapter : Option (RpcCommAdapterXML ServantOperation)}
  {message : ReceivedMessage}

theorem marshallResult_isSome (result : Option ParameterType)
    (value : result.elim Unit ParameterType.Value) :
    (marshallResult result value).isSome = result.isSome := by
  cases result with
  | none => rfl
  | some type => rfl

theorem delegate_oneway (oneway : message.calltype &&& onewayBit ≠ 0)
    (operation : ServantOperation) : operation.delegate message = [] := by
  rw [ServantOperation.delegate]
  split
  · rfl
  · split
    · rfl
    · exact if_pos oneway

/-- A two-way call of a method sends its result back, or nothing. -/
theorem delegate_twoWay (twoWay : message.calltype &&& onewayBit = 0)
    (operation : ServantOperation) :
    (operation.Answers message.root ∧
        ∃ xml, operation.delegate message =
          [message.toRpcMessageXML.returnOf xml]) ∨
      (¬ operation.Answers message.root ∧
        operation.delegate message = []) := by
  rw [ServantOperation.delegate, ServantOperation.Answers]
  cases decoded : decodeArguments operation.params message.root with
  | none => exact Or.inr ⟨by simp, rfl⟩
  | some arguments =>
      dsimp only
      cases served : operation.serve arguments with
      | none => exact Or.inr ⟨by simp [served], rfl⟩
      | some cr =>
          have isSome := marshallResult_isSome operation.result cr
          dsimp only
          rw [if_neg (by simp [twoWay])]
          cases text : marshallResult operation.result cr with
          | none =>
              rw [text] at isSome
              exact Or.inr ⟨by simp [← isSome], rfl⟩
          | some xml =>
              rw [text] at isSome
              exact Or.inl ⟨⟨isSome.symm, by simp [served]⟩, xml, rfl⟩

theorem dispatchReceived_call (call : message.calltype &&& callBit ≠ 0)
    (attached : RpcCommAdapterXML ServantOperation) :
    dispatchReceived (some attached) message =
      match attached.operation message.msgcls message.msg with
      | none => []
      | some operation => operation.delegate message := by
  rw [dispatchReceived, if_pos call, attached.dispatchMsg_call call]

theorem dispatchReceived_oneway
    (oneway : message.calltype &&& onewayBit ≠ 0) :
    dispatchReceived adapter message = [] := by
  unfold dispatchReceived
  split
  · split
    · rfl
    · split
      · rfl
      · exact delegate_oneway oneway _
  · rfl

/-- A method without a result is called, but its caller is not answered. -/
theorem not_answered_void (call : message.calltype &&& callBit ≠ 0)
    {attached : RpcCommAdapterXML ServantOperation}
    {operation : ServantOperation}
    (known :
      attached.operation message.msgcls message.msg = some operation)
    (void : operation.result = none) :
    dispatchReceived (some attached) message = [] := by
  rw [dispatchReceived_call call, known]
  by_cases oneway : message.calltype &&& onewayBit = 0
  · rcases delegate_twoWay oneway operation with ⟨answers, -⟩ | ⟨-, silent⟩
    · have isSome := answers.1
      rw [void] at isSome
      cases isSome
    · exact silent
  · exact delegate_oneway oneway operation

theorem answered_iff_answerable (call : message.calltype &&& callBit ≠ 0)
    (twoWay : message.calltype &&& onewayBit = 0) :
    Answered adapter message ↔ Answerable adapter message := by
  cases adapter with
  | none =>
      refine iff_of_false ?_ ?_
      · rintro ⟨reply, sent, -⟩
        rw [dispatchReceived, if_pos call] at sent
        cases sent
      · rintro ⟨attached, operation, same, -⟩
        cases same
  | some attached =>
      rw [Answered, Answerable, dispatchReceived_call call]
      cases known : attached.operation message.msgcls message.msg with
      | none => simp [known]
      | some operation =>
          rcases delegate_twoWay twoWay operation with
            ⟨answers, xml, sent⟩ | ⟨silent, sent⟩
          · refine iff_of_true ⟨_, sent, rfl, rfl⟩ ?_
            exact ⟨attached, operation, rfl, known, answers⟩
          · refine iff_of_false ?_ ?_
            · rintro ⟨reply, same, -⟩
              cases sent.symm.trans same
            · rintro ⟨other, reached, same, isReached, answers⟩
              obtain rfl := Option.some.inj same
              rw [known] at isReached
              obtain rfl := Option.some.inj isReached
              exact silent answers

/-- A two-way call is answered exactly when every layer lets it through to a
method that has a result, and a one-way call never is. -/
theorem dispatch_answers_iff
    (adapter : Option (RpcCommAdapterXML ServantOperation))
    (message : ReceivedMessage) :
    (message.calltype &&& callBit ≠ 0 →
        message.calltype &&& onewayBit = 0 →
          (Answered adapter message ↔ Answerable adapter message)) ∧
      (message.calltype &&& onewayBit ≠ 0 →
        dispatchReceived adapter message = []) :=
  ⟨answered_iff_answerable, dispatchReceived_oneway⟩

end Handling

/-- A servant of the test program, whose `verify` has a result. -/
def verifyOperation : ServantOperation where
  name := ⟨"verify".toList, by decide⟩
  params := []
  result := some (@IdlType.parameterType zeroTypes gpsType)
  serve _ := some ((0 : BitVec 32), ())

/-- The method `hello` of the interface `Terminal`. -/
def helloOperation : ServantOperation where
  name := ⟨"hello".toList, by decide⟩
  params := []
  result := none
  serve _ := some ()

def terminalAdapter : RpcCommAdapterXML ServantOperation :=
  RpcCommAdapterXML.addServant {}
    (emittedDelegate ⟨terminal, by decide⟩ [helloOperation, verifyOperation])

/-- A call of a method of `Terminal`, without arguments. -/
def terminalCall (calltype : Int32) (msg : Text) : ReceivedMessage where
  calltype := calltype
  sequence := 7
  msgcls := terminal
  msg := msg
  parentNode := some ⟨naviMsg, [], []⟩
  root := ⟨naviMsg, [], []⟩
  hasRoot := rfl

/-- A call of `verify` is answered, unless it is one-way. -/
theorem answered_verify :
    Answered (some terminalAdapter)
        (terminalCall callBit "verify".toList) ∧
      dispatchReceived (some terminalAdapter)
        (terminalCall (callBit ||| onewayBit) "verify".toList) = [] := by
  refine ⟨?_, ?_⟩
  · apply
      ((dispatch_answers_iff (some terminalAdapter)
        (terminalCall callBit "verify".toList)).1 (by decide)
        (by decide)).mpr
    exact ⟨terminalAdapter, verifyOperation, rfl, rfl, rfl, (), rfl, rfl⟩
  · exact
      (dispatch_answers_iff (some terminalAdapter)
        (terminalCall (callBit ||| onewayBit) "verify".toList)).2
        (by decide)

/-- A two-way call of `hello` is not answered. -/
theorem not_answered_hello :
    ¬ ∀ (adapter : Option (RpcCommAdapterXML ServantOperation))
        (message : ReceivedMessage),
      message.calltype &&& callBit ≠ 0 →
      message.calltype &&& onewayBit = 0 →
        Answered adapter message := by
  intro always
  obtain ⟨reply, sent, -⟩ :=
    always (some terminalAdapter) (terminalCall callBit "hello".toList)
      (by decide) (by decide)
  have silent :=
    @not_answered_void (terminalCall callBit "hello".toList) (by decide)
      terminalAdapter helloOperation rfl rfl
  cases silent.symm.trans sent

end LocationServer

import LocationServer.Rpc.Wire

/-!
# What becomes of a call and of its reply

The text of a call is unmarshalled, dispatched to the servant with the
arguments of the proxy, and answered by nothing or by the text of the result;
from the text of the result the proxy reads the result.
-/

namespace LocationServer

open Xml

/-- The methods have different names, and each type of an argument or a result
is read back from its own text. -/
structure Interface (methods : List RemoteMethod) : Prop where
  distinct : (methods.map fun method => method.name.text).Nodup
  inverse :
    ∀ method ∈ methods, ∀ type ∈ method.params ++ method.result.toList,
      type.Inverse

/-- The message of a reply to a call. -/
structure IsReplyTo (call : RemoteCall) (sequence : Int32)
    (value : call.method.Result) (reply : RpcMessageXML) : Prop where
  calltype : reply.calltype = returnBit
  sequence : reply.sequence = sequence
  msgcls : isIdentifier reply.msgcls = true
  msg : isIdentifier reply.msg = true
  xml : marshallResult call.method.result value = some reply.xml

/-! ## The call -/

theorem isIdentifier_append {name rest : Text}
    (identifier : isIdentifier name = true)
    (more : rest.all isIdentifierChar = true) :
    isIdentifier (name ++ rest) = true := by
  cases name with
  | nil => cases identifier
  | cons first tail =>
      rw [isIdentifier, Bool.and_eq_true] at identifier
      rw [List.cons_append, isIdentifier, List.all_append, identifier.1,
        identifier.2, more]
      rfl

theorem calltype_call {kind : MessageKind} (own : kind ≠ .reply) :
    kind.calltype &&& callBit ≠ 0 ∧ kind.calltype &&& returnBit = 0 := by
  cases kind with
  | twoWay => decide
  | oneWay => decide
  | async => decide
  | reply => exact absurd rfl own

theorem calltype_oneway {kind : MessageKind} (own : kind ≠ .reply)
    (silent : kind.expectsReply = false) :
    kind.calltype &&& onewayBit ≠ 0 := by
  cases kind with
  | twoWay => cases silent
  | oneWay => decide
  | async => cases silent
  | reply => exact absurd rfl own

section Call

variable {methods : List RemoteMethod} {call : RemoteCall}
variable {kind : MessageKind} {sequence : Int32}

/-- The text of a call is read as the call that it is. -/
theorem receivedMessage_request (interface : Interface methods)
    (known : call.method ∈ methods)
    (undisturbed : Undisturbed [] call.method.params call.arguments) :
    ∃ message : ReceivedMessage,
      receivedMessage
          (Utf16.encode (requestMessage kind sequence call).marshall) =
        some message ∧
      message.calltype = kind.calltype ∧ message.sequence = sequence ∧
      message.msgcls = terminal ∧ message.msg = call.method.name.text ∧
      decodeArguments call.method.params message.root =
        some call.arguments := by
  have inverse : ∀ type ∈ call.method.params, type.Inverse :=
    fun type member =>
      interface.inverse call.method known type
        (List.mem_append_left _ member)
  obtain ⟨nodes, body⟩ :=
    exists_wholeContent_marshallArguments inverse call.arguments
  have arrives :=
    @unmarshall_marshall (requestMessage kind sequence call)
      terminalInterface.valid call.method.name.valid nodes body
  have decoded :=
    (@decodeArguments_iff call.method.params inverse call.arguments []
      ((requestMessage kind sequence call).root nodes) nodes body rfl).mpr
      undisturbed
  refine
    ⟨⟨⟨kind.calltype, sequence, terminal, call.method.name.text, [],
      some ((requestMessage kind sequence call).root nodes)⟩,
      (requestMessage kind sequence call).root nodes, rfl⟩, ?_, rfl, rfl,
      rfl, rfl, decoded⟩
  rw [receivedMessage, Utf16.decode_encode, arrives]
  rfl

/-- The method is found by its name. -/
theorem operation_servantAdapter (interface : Interface methods)
    (known : call.method ∈ methods) (servant : Servant) :
    (servantAdapter methods servant).operation terminal
        call.method.name.text =
      some (call.method.operation servant) := by
  have distinct := interface.distinct
  rw [RpcCommAdapterXML.operation, servantAdapter,
    RpcCommAdapterXML.addServant]
  simp only [emittedDelegate, terminalInterface, List.filter_nil,
    List.lookup_cons_self, Option.bind_some, List.map_map]
  clear interface
  induction methods with
  | nil => cases known
  | cons method methods inductionHypothesis =>
      rw [List.map_cons, List.nodup_cons] at distinct
      rw [List.map_cons]
      rcases List.mem_cons.mp known with rfl | later
      · exact List.lookup_cons_self
      · have other :
            call.method.name.text ≠ method.name.text := by
          intro same
          apply distinct.1
          rw [← same]
          exact List.mem_map.mpr ⟨_, later, rfl⟩
        rw [List.lookup_cons]
        simp only [Function.comp_apply, RemoteMethod.operation,
          beq_false_of_ne other]
        exact inductionHypothesis later distinct.2

/-- A call is answered by nothing, or by the result of the servant for its
arguments. -/
theorem dispatchReceived_request (interface : Interface methods)
    (known : call.method ∈ methods) (own : kind ≠ .reply)
    {message : ReceivedMessage} (calltype : message.calltype = kind.calltype)
    (msgcls : message.msgcls = terminal)
    (msg : message.msg = call.method.name.text)
    (decoded :
      decodeArguments call.method.params message.root =
        some call.arguments)
    (servant : Option Servant) :
    dispatchReceived (servant.map (servantAdapter methods)) message = [] ∨
      ∃ chosen value reply,
        servant = some chosen ∧ kind.expectsReply = true ∧
          chosen call.method call.arguments = some value ∧
            IsReplyTo call message.sequence value reply ∧
              dispatchReceived (servant.map (servantAdapter methods))
                  message = [reply] := by
  have isCall : message.calltype &&& callBit ≠ 0 := by
    rw [calltype]
    exact (calltype_call own).1
  cases servant with
  | none =>
      left
      exact if_pos isCall
  | some chosen =>
      cases expects : kind.expectsReply with
      | false =>
          left
          apply dispatchReceived_oneway
          rw [calltype]
          exact calltype_oneway own expects
      | true =>
          rw [Option.map_some, dispatchReceived_call isCall, msgcls, msg,
            operation_servantAdapter interface known chosen]
          dsimp only
          rw [ServantOperation.delegate]
          have same :
              decodeArguments (call.method.operation chosen).params
                  message.root =
                some call.arguments := decoded
          rw [same]
          dsimp only
          cases served :
              (call.method.operation chosen).serve call.arguments with
          | none => exact Or.inl rfl
          | some value =>
              dsimp only
              split
              · exact Or.inl rfl
              · cases text :
                    marshallResult (call.method.operation chosen).result
                      value with
                | none => exact Or.inl rfl
                | some xml =>
                    right
                    refine
                      ⟨chosen, value, message.returnOf xml, rfl, rfl,
                        served, ⟨rfl, rfl, ?_, ?_, text⟩, rfl⟩
                    · change isIdentifier message.msgcls = true
                      rw [msgcls]
                      exact isIdentifier_terminal
                    · change
                        isIdentifier (message.msg ++ "Resp".toList) = true
                      rw [msg]
                      exact
                        isIdentifier_append call.method.name.valid
                          (by decide)

/-! ## The reply -/

/-- The text of a result is read as the result. -/
theorem receivedMessage_reply (interface : Interface methods)
    (known : call.method ∈ methods) {value : call.method.Result}
    {reply : RpcMessageXML} (isReply : IsReplyTo call sequence value reply) :
    ∃ message : ReceivedMessage,
      receivedMessage (Utf16.encode reply.marshall) = some message ∧
      message.calltype = returnBit ∧ message.sequence = sequence ∧
      readResult call.method.result message.root = some value := by
  obtain ⟨children, whole, read⟩ :
      ∃ children,
        wholeContent reply.xml = some children ∧
          readResult call.method.result (reply.root children) =
            some value := by
    have inverse := interface.inverse call.method known
    have xml := isReply.xml
    revert value
    rcases call with ⟨⟨name, params, result⟩, arguments⟩
    intro value isReply xml
    cases result with
    | none => cases xml
    | some type =>
        obtain ⟨found, whole, decoded⟩ := inverse type (by simp) value
        have isText : type.marshall value = reply.xml :=
          Option.some.inj xml
        have isTag := type.name_of_unmarshall found value decoded
        refine ⟨[found.node], isText ▸ whole, ?_⟩
        change ParameterType.decodeResult type _ = some value
        rw [ParameterType.decodeResult, Element.getElementsByTagName]
        change (Node.allNamed type.tag [found.node]).head?.bind _ = _
        rw [allNamed_cons_of_name isTag]
        exact decoded
  have arrives := unmarshall_marshall isReply.msgcls isReply.msg whole
  refine
    ⟨⟨⟨reply.calltype, reply.sequence, terminal, reply.msg, [],
      some (reply.root children)⟩, reply.root children, rfl⟩, ?_,
      isReply.calltype, isReply.sequence, read⟩
  rw [receivedMessage, Utf16.decode_encode, arrives]
  rfl

end Call

end LocationServer

import LocationServer.Rpc.Dispatch
import LocationServer.Rpc.ReadLoop
import LocationServer.Rpc.Session

/-!
# Two peers over streams of bytes (`RpcConnection_SocketXML.java`)

The two sides of a session with what they really exchange.  The proxies of a
side call the methods of the servant of the other side, `sendDetail` writes
the text of a message to the socket, and the read loop takes what `read` gives
it, cuts messages off its buffer and has them decoded and dispatched.  A reply
is its position among the `RETURN` messages that were received.

The servant is the one of the interface `Terminal`, which is the only one that
calls reach, and it can do something else at every call.
-/

namespace LocationServer

open StepSystem

/-! ## Methods and calls -/

/-- `RpcMessage.ASYNC` -/
def asyncBit : Int32 := 0x40

/-- The call type that the emitted code gives a message. -/
def MessageKind.calltype : MessageKind → Int32
  | .twoWay => callBit
  | .oneWay => callBit ||| onewayBit
  | .async => callBit ||| asyncBit
  | .reply => returnBit

/-- A method of the interface `Terminal`; a `void` method has no result. -/
structure RemoteMethod where
  name : Identifier
  params : List ParameterType
  result : Option ParameterType

/-- What a method returns. -/
abbrev RemoteMethod.Result (method : RemoteMethod) : Type :=
  method.result.elim Unit ParameterType.Value

/-- What a proxy is called with. -/
structure RemoteCall where
  method : RemoteMethod
  arguments : Arguments method.params

/-- What the servant does; it raises where it returns nothing. -/
abbrev Servant : Type 1 :=
  (method : RemoteMethod) → Arguments method.params → Option method.Result

def RemoteMethod.operation (method : RemoteMethod) (servant : Servant) :
    ServantOperation where
  name := method.name
  params := method.params
  result := method.result
  serve := servant method

theorem isIdentifier_terminal : isIdentifier terminal = true := by decide

def terminalInterface : Identifier :=
  ⟨terminal, isIdentifier_terminal⟩

/-- The adapter that the servant has been added to. -/
def servantAdapter (methods : List RemoteMethod) (servant : Servant) :
    RpcCommAdapterXML ServantOperation :=
  RpcCommAdapterXML.addServant {}
    (emittedDelegate terminalInterface
      (methods.map fun method => method.operation servant))

/-- The message that the proxy sends for a call. -/
def requestMessage (kind : MessageKind) (sequence : Int32)
    (call : RemoteCall) : RpcMessageXML :=
  proxyMessage terminalInterface call.method.name kind.calltype sequence
    call.arguments

/-- `_b.unmarshall(null,m2.parentNode)` in the emitted two-way method; `none`
when the result is not, or not wholly, read. -/
def ParameterType.decodeResult (type : ParameterType) (root : Xml.Element) :
    Option type.Value :=
  (root.getElementsByTagName type.tag).head?.bind type.unmarshall

/-- What the two-way method returns when its call has the reply. -/
def readResult : (result : Option ParameterType) → Xml.Element →
    Option (result.elim Unit ParameterType.Value)
  | none, _ => some ()
  | some type, root => type.decodeResult root

/-! ## Peers -/

/-- What a message object holds besides its number. -/
inductive MessageContent where
  | request (call : RemoteCall)
  | answer (reply : RpcMessageXML)

/-- The message that is marshalled. -/
def MessageContent.packet (message : RpcMessage) :
    MessageContent → RpcMessageXML
  | .request call => requestMessage message.kind message.sequence call
  | .answer reply => reply

structure Peer where
  connection : RpcConnection := {}
  /-- The numbers of the calls that are made but not sent yet. -/
  drawn : List Int32 := []
  /-- The contents of the messages of the connection. -/
  contents : List MessageContent := []
  /-- The messages that have been written to the socket. -/
  written : List Nat := []
  /-- What was written and has not been read by the peer. -/
  stream : List UInt8 := []
  reader : SocketReader := {}
  /-- The `RETURN` messages that were received. -/
  inbox : List RpcMessageXML := []

abbrev Wire : Type 1 :=
  Side → Peer

inductive WireLabel where
  /-- `getUniqueSequence` gives the number. -/
  | draw (side : Side) (sequence : Int32)
  /-- The message goes out over another connection, or never. -/
  | discard (side : Side) (position : Nat)
  | call (side : Side) (position : Nat) (kind : MessageKind) (timeout : Int)
      (call : RemoteCall)
  | write (side : Side) (index : Nat)
  /-- `read` gives so many bytes.  The servant is the one of an attached
  adapter, and dispatching a message may throw. -/
  | read (side : Side) (length : Nat) (servant : Option Servant)
      (throws : Bool)
  /-- A step of the callers, of `doReturnMsg` or of `onDisconnected`. -/
  | own (side : Side) (label : RpcLabel)
  /-- A new socket, with a new thread that reads it at the other end. -/
  | lose (side : Side)

/-- `RpcMessageXML.unmarshall(xml.getBytes())` -/
def receivedMessage (xml : List UInt16) : Option ReceivedMessage :=
  (RpcMessageXML.unmarshall (Utf16.decode xml)).bind fun message =>
    message.parentNode.map fun root =>
      { toRpcMessageXML := { message with parentNode := some root }
        root
        hasRoot := rfl }

namespace Peer

/-- `sendMessage(mr)` of a delegate, up to `sendDetail`. -/
def sendReply (peer : Peer) (mr : RpcMessageXML) : Option Peer :=
  (peer.connection.step (.send .reply mr.sequence 0)).map fun connection =>
    { peer with connection, contents := peer.contents ++ [.answer mr] }

/-- `doReturnMsg`, up to the completion of the call. -/
def doReturnMsg (peer : Peer) (m2 : RpcMessageXML) : Option Peer :=
  (peer.connection.step (.takeReply m2.sequence peer.inbox.length)).map
    fun connection =>
      { peer with connection, inbox := peer.inbox ++ [m2] }

def dispatchMsg (peer : Peer)
    (adapter : Option (RpcCommAdapterXML ServantOperation))
    (message : ReceivedMessage) : Option Peer :=
  ((dispatchReceived adapter message).foldlM sendReply peer).bind
    fun peer =>
      if message.calltype &&& returnBit ≠ 0 then
        peer.doReturnMsg message.toRpcMessageXML
      else some peer

/-- The read loop with the bytes, and the message that it hands over. -/
def receive (peer : Peer) (d : List UInt8) (throws : Bool) :
    Peer × Option ReceivedMessage :=
  let reader := peer.reader.receive (fun _ => !throws) d
  let handed := reader.decoded.drop peer.reader.decoded.length
  ({ peer with reader }, handed.head?.bind receivedMessage)

/-- `sendDetail` returns after it has written, and the other labels of a
connection that send or receive have labels of their own. -/
def allows (peer : Peer) (label : RpcLabel) : Bool :=
  ({ written := peer.written } : Endpoint).allows label

end Peer

namespace Wire

def step (methods : Side → List RemoteMethod) (wire : Wire) :
    WireLabel → Option Wire
  | .draw side sequence =>
      let peer := wire side
      some
        (Function.update wire side
          { peer with drawn := peer.drawn ++ [sequence] })
  | .discard side position =>
      let peer := wire side
      some
        (Function.update wire side
          { peer with drawn := peer.drawn.eraseIdx position })
  | .call side position kind timeout call =>
      let peer := wire side
      peer.drawn[position]?.bind fun sequence =>
        if kind = .reply then none
        else
          (peer.connection.step (.send kind sequence timeout)).map
            fun connection =>
              Function.update wire side
                { peer with
                  connection
                  contents := peer.contents ++ [.request call]
                  drawn := peer.drawn.eraseIdx position }
  | .write side index =>
      let peer := wire side
      peer.connection.messages[index]?.bind fun message =>
        if message.pc = .sending ∧ index ∉ peer.written then
          peer.contents[index]?.map fun content =>
            Function.update wire side
              { peer with
                written := peer.written ++ [index]
                stream :=
                  peer.stream ++
                    Utf8.encode (content.packet message).marshall }
        else none
  | .read side length servant throws =>
      let peer := wire side
      let sender := wire side.other
      if peer.reader.status = .reading ∧ 0 < length ∧ length ≤ readSize ∧
          length ≤ sender.stream.length then
        let drained :=
          Function.update wire side.other
            { sender with stream := sender.stream.drop length }
        match peer.receive (sender.stream.take length) throws with
        | (peer, none) => some (Function.update drained side peer)
        | (peer, some message) =>
            (peer.dispatchMsg (servant.map (servantAdapter (methods side)))
                message).map
              fun peer => Function.update drained side peer
      else none
  | .own side label =>
      let peer := wire side
      if peer.allows label then
        (peer.connection.step label).map fun connection =>
          Function.update wire side { peer with connection }
      else none
  | .lose side =>
      some
        (Function.update
          (Function.update wire side { wire side with stream := [] })
          side.other { wire side.other with reader := {} })

def start : Wire := fun _ => {}

/-! ## Conditions on a run -/

/-- A proxy is called for a method of the servant, and no argument is taken for
another one. -/
def Made (methods : Side → List RemoteMethod) : WireLabel → Prop
  | .call side _ _ _ call =>
      call.method ∈ methods side.other ∧
        Undisturbed [] call.method.params call.arguments
  | _ => True

/-- What is written is a message for the read loop, and a read ends neither
inside a character nor, when the buffer holds no more than that, inside an
opening marker. -/
def Legible (wire : Wire) : WireLabel → Prop
  | .write side index =>
      ∀ message ∈ (wire side).connection.messages[index]?,
        ∀ content ∈ (wire side).contents[index]?,
          IsMessage (content.packet message).marshall
  | .read side length _ _ =>
      let d := (wire side.other).stream.take length
      Utf8.encode (Utf8.decode d) = d ∧
        envelopBegin.length ≤
          ((wire side).reader.strbuf ++ Java.newString d).length
  | _ => True

instance (wire : Wire) : DecidablePred wire.Legible
  | .draw _ _ => inferInstanceAs (Decidable True)
  | .discard _ _ => inferInstanceAs (Decidable True)
  | .call _ _ _ _ _ => inferInstanceAs (Decidable True)
  | .write _ _ =>
      inferInstanceAs
        (Decidable (∀ message ∈ _, ∀ content ∈ _, IsMessage _))
  | .read _ _ _ _ => inferInstanceAs (Decidable (_ ∧ _))
  | .own _ _ => inferInstanceAs (Decidable True)
  | .lose _ => inferInstanceAs (Decidable True)

end Wire

end LocationServer

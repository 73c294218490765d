import LocationServer.Rpc.Renaming
import LocationServer.Rpc.SessionNumbers
import LocationServer.Rpc.WireMessages

/-!
# Calls over streams of bytes

However the bytes of the messages are cut, what the two sides do with them is a
run of the session over whole messages, as long as no read ends inside a
character or an opening marker.  So a call that has a reply has the one that
was made for it, and from that the proxy reads what the servant has returned
for its arguments.
-/

namespace LocationServer

open StepSystem

/-! ## The read loop over a stream of messages -/

/-- What is in the buffer and what has not been read are the texts, for a loop
that goes on. -/
def Streams (reader : SocketReader) (stream : List UInt8)
    (texts : List (List Char)) : Prop :=
  reader.status = .reading →
    ∃ backlog rest,
      reader.strbuf = Utf16.encode backlog ∧ stream = Utf8.encode rest ∧
        backlog ++ rest = texts.flatten

/-- A buffer that begins with a message and is long enough has the whole of
its opening marker. -/
theorem opened_of_length {text buffer : List Char} (isFrame : Frame text)
    (begun : buffer <+: text)
    (long : envelopBegin.length ≤ (Utf16.encode buffer).length) :
    envelopBegin <+: buffer := by
  rcases Nat.lt_or_ge buffer.length envelopBegin.length with short | enough
  · obtain ⟨tail, split⟩ :=
      List.prefix_of_prefix_length_le begun isFrame.opens
        (Nat.le_of_lt short)
    cases tail with
    | nil =>
        rw [List.append_nil] at split
        rw [split] at short
        exact absurd short (Nat.lt_irrefl _)
    | cons c tail =>
        have units := congrArg (fun text => (Utf16.encode text).length) split
        have whole :
            (Utf16.encode envelopBegin).length = envelopBegin.length := by
          decide
        have more : 0 < (Utf16.codeUnits c).length :=
          List.length_pos_iff.mpr (Utf16.codeUnits_ne_nil c)
        rw [whole, Utf16.encode_append, Utf16.encode_cons,
          List.length_append, List.length_append] at units
        omega
  · exact List.prefix_of_prefix_length_le isFrame.opens begun enough

/-- A read hands over the first message, or none. -/
theorem receive_cases {reader : SocketReader} {stream : List UInt8}
    {texts : List (List Char)} {length : Nat} (throws : Bool)
    (isMessage : ∀ text ∈ texts, IsMessage text)
    (streams : Streams reader stream texts)
    (reading : reader.status = .reading)
    (whole :
      Utf8.encode (Utf8.decode (stream.take length)) = stream.take length)
    (marked :
      envelopBegin.length ≤
        (reader.strbuf ++ Java.newString (stream.take length)).length) :
    ((reader.receive (fun _ => !throws) (stream.take length)).decoded =
        reader.decoded ∧
      Streams (reader.receive (fun _ => !throws) (stream.take length))
        (stream.drop length) texts) ∨
      ∃ text later, texts = text :: later ∧
        (reader.receive (fun _ => !throws) (stream.take length)).decoded =
            reader.decoded ++ [Utf16.encode text] ∧
          Streams (reader.receive (fun _ => !throws) (stream.take length))
            (stream.drop length) later := by
  obtain ⟨backlog, rest, buffer, bytes, together⟩ := streams reading
  have pieces :
      Utf8.encode (Utf8.decode (stream.take length)) ++
          stream.drop length =
        Utf8.encode rest := by
    rw [whole, List.take_append_drop, bytes]
  have restSplit :
      rest =
        Utf8.decode (stream.take length) ++
          Utf8.decode (stream.drop length) := by
    rw [← Utf8.decode_encode rest, ← pieces, Utf8.decode_encode_append]
  have unread :
      stream.drop length =
        Utf8.encode (Utf8.decode (stream.drop length)) := by
    have both := pieces
    rw [restSplit, Utf8.encode_append] at both
    exact List.append_cancel_left both
  generalize Utf8.decode (stream.drop length) = after at restSplit unread
  have received :
      reader.receive (fun _ => !throws) (stream.take length) =
        SocketReader.parse (fun _ => !throws)
          ⟨Utf16.encode (backlog ++ Utf8.decode (stream.take length)),
            reader.decoded, .reading⟩ := by
    rw [SocketReader.receive, if_pos reading, buffer, Java.newString,
      ← Utf16.encode_append, reading]
  rw [buffer, Java.newString, ← Utf16.encode_append] at marked
  rw [restSplit, ← List.append_assoc] at together
  rw [received]
  generalize backlog ++ Utf8.decode (stream.take length) = held
    at marked together
  cases texts with
  | nil =>
      obtain ⟨empty, -⟩ := List.append_eq_nil_iff.mp together
      rw [empty] at marked
      exact absurd marked (by decide)
  | cons text later =>
      obtain ⟨isFrame, -⟩ := isMessage text List.mem_cons_self
      rw [List.flatten_cons] at together
      rcases Nat.lt_or_ge held.length text.length with short | ended
      · left
        have begun : held <+: text :=
          List.prefix_of_prefix_length_le ⟨after, together⟩
            (List.prefix_append text later.flatten) (Nat.le_of_lt short)
        rw [SocketReader.parse_of_begun _ _ _
          (opened_of_length isFrame begun marked)
          (SocketReader.noClose_of_begun isFrame begun short)]
        split
        · refine ⟨rfl, ?_⟩
          intro closed
          cases closed
        · refine ⟨rfl, fun _ => ⟨held, after, rfl, unread, ?_⟩⟩
          rw [List.flatten_cons]
          exact together
      · right
        obtain ⟨more, rfl⟩ : text <+: held :=
          List.prefix_of_prefix_length_le
            (List.prefix_append text later.flatten) ⟨after, together⟩ ended
        rw [List.append_assoc] at together
        refine ⟨text, later, rfl, ?_, ?_⟩
        · rw [SocketReader.parse_of_message _ isFrame]
        · rw [SocketReader.parse_of_message _ isFrame]
          intro _
          exact
            ⟨more, after, rfl, unread, List.append_cancel_left together⟩

/-! ## What a peer knows -/

section Peers

variable (methods : Side → List RemoteMethod) (labels : List WireLabel)

/-- The servant of the side returns the value for the call, in some step. -/
def Offered (side : Side) (call : RemoteCall) (value : call.method.Result) :
    Prop :=
  ∃ length servant throws,
    WireLabel.read side length (some servant) throws ∈ labels ∧
      servant call.method call.arguments = some value

/-- A message of the side that answers the call. -/
def AnswersCall (side : Side) (call : RemoteCall) (sequence : Int32)
    (reply : RpcMessageXML) : Prop :=
  call.method ∈ methods side ∧
    ∃ value, Offered labels side call value ∧
      IsReplyTo call sequence value reply

/-- What the proxy reads from a reply is what the servant of the other side has
returned. -/
def ReadsBack (side : Side) (call : RemoteCall) (m2 : RpcMessageXML) :
    Prop :=
  ∃ root value, m2.parentNode = some root ∧
    readResult call.method.result root = some value ∧
      Offered labels side.other call value

/-- The text that a packet stands for. -/
def Carries (side : Side) (own others : List MessageContent) :
    Packet → List Char → Prop
  | .call kind sequence index, text =>
      ∃ call, own[index]? = some (.request call) ∧ kind ≠ .reply ∧
        call.method ∈ methods side.other ∧
          Undisturbed [] call.method.params call.arguments ∧
            text = (requestMessage kind sequence call).marshall
  | .reply sequence index, text =>
      ∃ call reply, others[index]? = some (.request call) ∧
        AnswersCall methods labels side call sequence reply ∧
          text = reply.marshall

/-- What a message object holds. -/
def Holds (side : Side) (answers : List (Nat × Nat))
    (others : List MessageContent) (index : Nat) (message : RpcMessage) :
    MessageContent → Prop
  | .request call =>
      message.kind ≠ .reply ∧ call.method ∈ methods side.other ∧
        Undisturbed [] call.method.params call.arguments
  | .answer reply =>
      message.kind = .reply ∧
        ∃ asked call, answers.lookup index = some asked ∧
          others[asked]? = some (.request call) ∧
            AnswersCall methods labels side call message.sequence reply

/-- The call that a received reply answers. -/
def answeredCall (origins : List Nat) (reply : Nat) : Nat :=
  origins.getD reply 0

/-- A peer stands for an endpoint of a session: its replies are named by the
calls that they answer, and its stream holds the texts of the packets. -/
structure Stands (side : Side) (peer : Peer) (endpoint : Endpoint)
    (origins : List Nat) (others : List MessageContent)
    (reader : SocketReader) : Prop where
  connection :
    endpoint.connection = peer.connection.rename (answeredCall origins)
  drawn : endpoint.drawn = peer.drawn
  written : endpoint.written = peer.written
  sized : peer.contents.length = peer.connection.messages.length
  answered :
    ∀ answer ∈ endpoint.answers,
      answer.1 < peer.connection.messages.length
  holds :
    ∀ (index : Nat) (message : RpcMessage) (content : MessageContent),
      peer.connection.messages[index]? = some message →
        peer.contents[index]? = some content →
          Holds methods labels side endpoint.answers others index message
            content
  below : peer.connection.RepliesBelow peer.inbox.length
  received : origins.length = peer.inbox.length
  inbox :
    ∀ (reply : Nat) (m2 : RpcMessageXML), peer.inbox[reply]? = some m2 →
      ∃ call,
        peer.contents[answeredCall origins reply]? = some (.request call) ∧
          ReadsBack labels side call m2
  outgoing :
    ∃ texts,
      List.Forall₂ (Carries methods labels side peer.contents others)
          endpoint.outgoing texts ∧
        (∀ text ∈ texts, IsMessage text) ∧
          Streams reader peer.stream texts

end Peers

section Steps

variable {methods : Side → List RemoteMethod} {labels : List WireLabel}
variable {side : Side} {peer : Peer} {endpoint : Endpoint}
variable {origins : List Nat} {others : List MessageContent}
variable {reader : SocketReader}

theorem answeredCall_append {reply : Nat} (bound : reply < origins.length)
    (more : List Nat) :
    answeredCall (origins ++ more) reply = answeredCall origins reply := by
  rw [answeredCall, answeredCall, List.getD_eq_getElem?_getD,
    List.getD_eq_getElem?_getD, List.getElem?_append_left bound]

theorem answeredCall_length (asked : Nat) :
    answeredCall (origins ++ [asked]) origins.length = asked := by
  rw [answeredCall, List.getD_eq_getElem?_getD, List.getElem?_concat_length]
  rfl

theorem getElem?_of_grown {contents grown : List MessageContent} {index : Nat}
    {content : MessageContent} (grows : contents <+: grown)
    (present : contents[index]? = some content) :
    grown[index]? = some content := by
  obtain ⟨more, rfl⟩ := grows
  obtain ⟨bound, -⟩ := List.getElem?_eq_some_iff.mp present
  rw [List.getElem?_append_left bound]
  exact present

theorem Carries.grown {own : List MessageContent}
    {ownGrown othersGrown : List MessageContent} {packet : Packet}
    {text : List Char}
    (carries : Carries methods labels side own others packet text)
    (ownGrows : own <+: ownGrown) (othersGrow : others <+: othersGrown) :
    Carries methods labels side ownGrown othersGrown packet text := by
  cases packet with
  | call kind sequence index =>
      obtain ⟨call, present, known⟩ := carries
      exact ⟨call, getElem?_of_grown ownGrows present, known⟩
  | reply sequence index =>
      obtain ⟨call, reply, present, answers⟩ := carries
      exact ⟨call, reply, getElem?_of_grown othersGrow present, answers⟩

theorem Holds.grown {answers : List (Nat × Nat)} {index : Nat}
    {message : RpcMessage} {content : MessageContent}
    {othersGrown : List MessageContent}
    (holds : Holds methods labels side answers others index message content)
    (othersGrow : others <+: othersGrown) :
    Holds methods labels side answers othersGrown index message content := by
  cases content with
  | request call => exact holds
  | answer reply =>
      obtain ⟨isReply, asked, call, answer, present, answers⟩ := holds
      exact
        ⟨isReply, asked, call, answer, getElem?_of_grown othersGrow present,
          answers⟩

theorem forall_carries_grown {own ownGrown othersGrown : List MessageContent}
    {packets : List Packet} {texts : List (List Char)}
    (carried :
      List.Forall₂ (Carries methods labels side own others) packets texts)
    (ownGrows : own <+: ownGrown) (othersGrow : others <+: othersGrown) :
    List.Forall₂ (Carries methods labels side ownGrown othersGrown) packets
      texts :=
  carried.imp fun _ _ carries => carries.grown ownGrows othersGrow

/-- The other side may have sent more messages. -/
theorem Stands.grown
    (stands : Stands methods labels side peer endpoint origins others reader)
    {othersGrown : List MessageContent} (grows : others <+: othersGrown) :
    Stands methods labels side peer endpoint origins othersGrown reader where
  connection := stands.connection
  drawn := stands.drawn
  written := stands.written
  sized := stands.sized
  answered := stands.answered
  holds := fun index message content found present =>
    (stands.holds index message content found present).grown grows
  below := stands.below
  received := stands.received
  inbox := stands.inbox
  outgoing := by
    obtain ⟨texts, carried, isMessage, streams⟩ := stands.outgoing
    exact
      ⟨texts, forall_carries_grown carried (List.prefix_refl _) grows,
        isMessage, streams⟩

/-- A message object goes on holding what it held. -/
theorem Holds.of_same {answers : List (Nat × Nat)} {index : Nat}
    {before message : RpcMessage} {content : MessageContent}
    (holds : Holds methods labels side answers others index before content)
    (sameKind : message.kind = before.kind)
    (sameSequence : message.sequence = before.sequence) :
    Holds methods labels side answers others index message content := by
  cases content with
  | request call => exact ⟨sameKind ▸ holds.1, holds.2⟩
  | answer reply =>
      obtain ⟨isReply, asked, call, answer, isCall, answers⟩ := holds
      exact
        ⟨sameKind.trans isReply, asked, call, answer, isCall,
          sameSequence ▸ answers⟩

/-- A step of the connection that sends nothing and takes no reply. -/
theorem Stands.moved
    (stands : Stands methods labels side peer endpoint origins others reader)
    {label : RpcLabel} {connection : RpcConnection}
    (stepped : peer.connection.step label = some connection)
    (notSend : ∀ kind sequence timeout, label ≠ .send kind sequence timeout)
    (notReply : ∀ sequence reply, label ≠ .takeReply sequence reply) :
    Stands methods labels side { peer with connection }
      { endpoint with connection := connection.rename (answeredCall origins) }
      origins others reader := by
  have moved := RpcConnection.moved_of_step stepped
  have sameLength :
      connection.messages.length = peer.connection.messages.length := by
    rcases RpcConnection.messages_length_of_moved moved with
      same | ⟨kind, sequence, timeout, isSend, -⟩
    · exact same
    · exact absurd isSend (notSend kind sequence timeout)
  refine
    { connection := rfl
      drawn := stands.drawn
      written := stands.written
      sized := stands.sized.trans sameLength.symm
      answered := ?_
      holds := ?_
      below :=
        stands.below.of_moved moved fun sequence reply isReply =>
          absurd isReply (notReply sequence reply)
      received := stands.received
      inbox := stands.inbox
      outgoing := stands.outgoing }
  · intro answer member
    rw [sameLength]
    exact stands.answered answer member
  · intro index message content found present
    rcases RpcConnection.before_of_moved moved found with
      ⟨before, earlier, sameKind, sameSequence, -⟩ |
        ⟨-, kind, sequence, timeout, isSend, -⟩
    · have held := stands.holds index before content earlier present
      exact held.of_same sameKind sameSequence
    · exact absurd isSend (notSend kind sequence timeout)

theorem lookup_append_of_some {answers : List (Nat × Nat)}
    {index asked : Nat} (found : answers.lookup index = some asked)
    (extra : List (Nat × Nat)) :
    (answers ++ extra).lookup index = some asked := by
  rw [List.lookup_append, found]
  rfl

/-- A message is registered. -/
theorem Stands.sends
    (stands : Stands methods labels side peer endpoint origins others reader)
    {kind : MessageKind} {sequence : Int32} {timeout : Int}
    {connection : RpcConnection}
    (stepped :
      peer.connection.step (.send kind sequence timeout) = some connection)
    (content : MessageContent) {drawn endpointDrawn : List Int32}
    (sameDrawn : endpointDrawn = drawn) (extra : List (Nat × Nat))
    (keys :
      ∀ answer ∈ extra, answer.1 = peer.connection.messages.length)
    (new :
      Holds methods labels side (endpoint.answers ++ extra) others
        peer.connection.messages.length
        ({ kind, sequence, timeout } : RpcMessage) content) :
    Stands methods labels side
      { peer with
        connection
        contents := peer.contents ++ [content]
        drawn }
      { endpoint with
        connection := connection.rename (answeredCall origins)
        answers := endpoint.answers ++ extra
        drawn := endpointDrawn }
      origins others reader := by
  have moved := RpcConnection.moved_of_step stepped
  have messages := RpcConnection.messages_of_sent moved
  have longer :
      connection.messages.length =
        peer.connection.messages.length + 1 := by
    rw [messages, List.length_append]
    rfl
  refine
    { connection := rfl
      drawn := sameDrawn
      written := stands.written
      sized := ?_
      answered := ?_
      holds := ?_
      below :=
        stands.below.of_moved moved fun _ _ isReply =>
          RpcLabel.noConfusion isReply
      received := stands.received
      inbox := ?_
      outgoing := ?_ }
  · rw [longer, List.length_append, stands.sized]
    rfl
  · intro answer member
    rw [longer]
    rcases List.mem_append.mp member with older | isNew
    · exact Nat.lt_succ_of_lt (stands.answered answer older)
    · exact (keys answer isNew) ▸ Nat.lt_succ_self _
  · intro index message stored found present
    dsimp only at found present
    rw [messages] at found
    rcases Nat.lt_trichotomy index peer.connection.messages.length with
      older | atEnd | beyond
    · rw [List.getElem?_append_left older] at found
      rw [List.getElem?_append_left (by rw [stands.sized]; exact older)]
        at present
      have held := stands.holds index message stored found present
      cases stored with
      | request call => exact held
      | answer reply =>
          obtain ⟨isReply, asked, call, answer, isCall, answers⟩ := held
          exact
            ⟨isReply, asked, call, lookup_append_of_some answer extra,
              isCall, answers⟩
    · subst atEnd
      rw [List.getElem?_concat_length] at found
      rw [← stands.sized, List.getElem?_concat_length] at present
      rw [← Option.some.inj found, ← Option.some.inj present]
      exact new
    · rw [List.getElem?_eq_none (by simp; omega)] at found
      cases found
  · intro reply m2 isReply
    obtain ⟨call, present, reads⟩ := stands.inbox reply m2 isReply
    exact
      ⟨call, getElem?_of_grown (List.prefix_append _ _) present, reads⟩
  · obtain ⟨texts, carried, isMessage, streams⟩ := stands.outgoing
    exact
      ⟨texts,
        forall_carries_grown carried (List.prefix_append _ _)
          (List.prefix_refl _),
        isMessage, streams⟩

/-- The renamed connection takes the reply under the number of its call. -/
theorem Stands.step_takeReply
    (stands : Stands methods labels side peer endpoint origins others reader)
    {sequence : Int32} {connection : RpcConnection}
    (stepped :
      peer.connection.step (.takeReply sequence peer.inbox.length) =
        some connection)
    (asked : Nat) :
    endpoint.connection.step (.takeReply sequence asked) =
      some (connection.rename (answeredCall (origins ++ [asked]))) := by
  have renamed :=
    @RpcConnection.step_rename (answeredCall (origins ++ [asked])) _ _ _ stepped
  rw [RpcLabel.rename, ← stands.received, answeredCall_length] at renamed
  rw [stands.connection, ← renamed]
  congr 1
  apply RpcConnection.rename_congr stands.below
  intro reply bound
  rw [← stands.received] at bound
  exact (answeredCall_append bound [asked]).symm

/-- A reply is received. -/
theorem Stands.takes
    (stands : Stands methods labels side peer endpoint origins others reader)
    {sequence : Int32} {connection : RpcConnection}
    (stepped :
      peer.connection.step (.takeReply sequence peer.inbox.length) =
        some connection)
    {asked : Nat} {call : RemoteCall} {m2 : RpcMessageXML}
    (isCall : peer.contents[asked]? = some (.request call))
    (reads : ReadsBack labels side call m2) :
    Stands methods labels side
      { peer with connection, inbox := peer.inbox ++ [m2] }
      { endpoint with
        connection := connection.rename (answeredCall (origins ++ [asked])) }
      (origins ++ [asked]) others reader := by
  have moved := RpcConnection.moved_of_step stepped
  have sameLength :
      connection.messages.length = peer.connection.messages.length := by
    rcases RpcConnection.messages_length_of_moved moved with
      same | ⟨kind, number, timeout, isSend, -⟩
    · exact same
    · cases isSend
  have longer : (peer.inbox ++ [m2]).length = peer.inbox.length + 1 := by
    rw [List.length_append]
    rfl
  refine
    { connection := rfl
      drawn := stands.drawn
      written := stands.written
      sized := stands.sized.trans sameLength.symm
      answered := ?_
      holds := ?_
      below := ?_
      received := ?_
      inbox := ?_
      outgoing := stands.outgoing }
  · intro answer member
    rw [sameLength]
    exact stands.answered answer member
  · intro index message content found present
    rcases RpcConnection.before_of_moved moved found with
      ⟨before, earlier, sameKind, sameSequence, -⟩ |
        ⟨-, kind, number, timeout, isSend, -⟩
    · have held := stands.holds index before content earlier present
      exact held.of_same sameKind sameSequence
    · cases isSend
  · rw [longer]
    apply (stands.below.mono (Nat.le_succ _)).of_moved moved
    intro number reply isReply
    cases isReply
    exact Nat.lt_succ_self _
  · rw [longer, List.length_append, stands.received]
    rfl
  · intro reply other isReply
    dsimp only at isReply
    rcases Nat.lt_trichotomy reply peer.inbox.length with
      older | atEnd | beyond
    · rw [List.getElem?_append_left older] at isReply
      rw [answeredCall_append (by rw [stands.received]; exact older)]
      exact stands.inbox reply other isReply
    · subst atEnd
      rw [List.getElem?_concat_length] at isReply
      rw [← stands.received, answeredCall_length, ← Option.some.inj isReply]
      exact ⟨call, isCall, reads⟩
    · rw [List.getElem?_eq_none (by rw [longer]; omega)] at isReply
      cases isReply

end Steps

end LocationServer

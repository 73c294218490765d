import LocationServer.Rpc.WireSession

/-!
# Runs over streams of bytes

The session does in no step, or in one, what the two sides do with their bytes,
so what holds of the runs of the session holds of the names of the replies.
-/

namespace LocationServer

open StepSystem

section Steps

variable {methods : Side → List RemoteMethod} {labels : List WireLabel}
variable {side : Side} {peer : Peer} {endpoint : Endpoint}
variable {origins : List Nat} {others : List MessageContent}
variable {reader : SocketReader}

/-! ## What a step changes for one side -/

/-- Numbers are drawn or given up. -/
theorem Stands.draws
    (stands : Stands methods labels side peer endpoint origins others reader)
    {drawn endpointDrawn : List Int32} (sameDrawn : endpointDrawn = drawn) :
    Stands methods labels side { peer with drawn }
      { endpoint with drawn := endpointDrawn } origins others reader where
  connection := stands.connection
  drawn := sameDrawn
  written := stands.written
  sized := stands.sized
  answered := stands.answered
  holds := stands.holds
  below := stands.below
  received := stands.received
  inbox := stands.inbox
  outgoing := stands.outgoing

/-- The side reads. -/
theorem Stands.reads
    (stands : Stands methods labels side peer endpoint origins others reader)
    (own : SocketReader) :
    Stands methods labels side { peer with reader := own } endpoint origins
      others reader where
  connection := stands.connection
  drawn := stands.drawn
  written := stands.written
  sized := stands.sized
  answered := stands.answered
  holds := stands.holds
  below := stands.below
  received := stands.received
  inbox := stands.inbox
  outgoing := stands.outgoing

/-- What is on its way changes. -/
theorem Stands.carries
    (stands : Stands methods labels side peer endpoint origins others reader)
    {written : List Nat} {endpointWritten : List Nat}
    (sameWritten : endpointWritten = written)
    {stream : List UInt8} {later : SocketReader} {outgoing : List Packet}
    {texts : List (List Char)}
    (carried :
      List.Forall₂ (Carries methods labels side peer.contents others)
        outgoing texts)
    (isMessage : ∀ text ∈ texts, IsMessage text)
    (streams : Streams later stream texts) :
    Stands methods labels side { peer with written, stream }
      { endpoint with written := endpointWritten, outgoing } origins others
      later where
  connection := stands.connection
  drawn := stands.drawn
  written := sameWritten
  sized := stands.sized
  answered := stands.answered
  holds := stands.holds
  below := stands.below
  received := stands.received
  inbox := stands.inbox
  outgoing := ⟨texts, carried, isMessage, streams⟩

/-- A message is written as the packet that it is. -/
theorem Holds.exists_packet {own : List MessageContent} {index : Nat}
    {message : RpcMessage} {content : MessageContent}
    (holds :
      Holds methods labels side endpoint.answers others index message content)
    (present : own[index]? = some content) (names : Nat → Nat) :
    ∃ packet, endpoint.packet index (message.rename names) = some packet ∧
      Carries methods labels side own others packet
        (content.packet message).marshall := by
  cases content with
  | request call =>
      obtain ⟨isOwn, known, undisturbed⟩ := holds
      exact
        ⟨.call message.kind message.sequence index, if_neg isOwn, call,
          present, isOwn, known, undisturbed, rfl⟩
  | answer reply =>
      obtain ⟨isReply, asked, call, answer, isCall, answers⟩ := holds
      refine
        ⟨.reply message.sequence asked, ?_, call, reply, isCall, answers,
          rfl⟩
      refine (if_pos isReply).trans ?_
      rw [answer]
      rfl

theorem Streams.append {stream : List UInt8} {texts : List (List Char)}
    (streams : Streams reader stream texts) (text : List Char) :
    Streams reader (stream ++ Utf8.encode text) (texts ++ [text]) := by
  intro reading
  obtain ⟨backlog, rest, buffer, bytes, together⟩ := streams reading
  refine ⟨backlog, rest ++ text, buffer, ?_, ?_⟩
  · rw [bytes, Utf8.encode_append]
  · rw [List.flatten_concat, ← together, List.append_assoc]

/-- A message is written. -/
theorem Stands.writes
    (stands : Stands methods labels side peer endpoint origins others reader)
    {index : Nat} {message : RpcMessage} {content : MessageContent}
    (found : peer.connection.messages[index]? = some message)
    (present : peer.contents[index]? = some content)
    (isMessage : IsMessage (content.packet message).marshall) :
    ∃ packet,
      endpoint.packet index (message.rename (answeredCall origins)) =
          some packet ∧
        Stands methods labels side
          { peer with
            written := peer.written ++ [index]
            stream :=
              peer.stream ++ Utf8.encode (content.packet message).marshall }
          { endpoint with
            written := endpoint.written ++ [index]
            outgoing := endpoint.outgoing ++ [packet] }
          origins others reader := by
  have holds := stands.holds index message content found present
  obtain ⟨packet, isPacket, carries⟩ :=
    holds.exists_packet present (answeredCall origins)
  obtain ⟨texts, carried, areMessages, streams⟩ := stands.outgoing
  refine ⟨packet, isPacket, ?_⟩
  apply stands.carries
  · rw [stands.written]
  · exact List.rel_append carried (List.Forall₂.cons carries .nil)
  · intro text member
    rcases List.mem_append.mp member with older | isNew
    · exact areMessages text older
    · rw [List.mem_singleton.mp isNew]
      exact isMessage
  · exact streams.append _

end Steps

/-! ## The receiver -/

namespace Peer

variable {peer : Peer} {d : List UInt8} {throws : Bool}

theorem receive_of_same
    (same :
      (peer.reader.receive (fun _ => !throws) d).decoded =
        peer.reader.decoded) :
    peer.receive d throws =
      ({ peer with reader := peer.reader.receive (fun _ => !throws) d },
        none) := by
  simp only [receive, same, List.drop_length]
  rfl

theorem receive_of_handed {text : List Char}
    (handed :
      (peer.reader.receive (fun _ => !throws) d).decoded =
        peer.reader.decoded ++ [Utf16.encode text]) :
    peer.receive d throws =
      ({ peer with reader := peer.reader.receive (fun _ => !throws) d },
        receivedMessage (Utf16.encode text)) := by
  simp only [receive, handed, List.drop_left]
  rfl

variable {adapter : Option (RpcCommAdapterXML ServantOperation)}
variable {message : ReceivedMessage}

theorem dispatchMsg_of_call
    (notReturn : message.calltype &&& returnBit = 0) :
    peer.dispatchMsg adapter message =
      (dispatchReceived adapter message).foldlM sendReply peer := by
  rw [dispatchMsg]
  simp [notReturn]

theorem dispatchMsg_of_return (isReturn : message.calltype = returnBit) :
    peer.dispatchMsg adapter message =
      peer.doReturnMsg message.toRpcMessageXML := by
  have silent : dispatchReceived adapter message = [] := by
    refine if_neg ?_
    rw [isReturn]
    decide
  rw [dispatchMsg, silent, isReturn]
  rfl

end Peer

/-! ## Both sides -/

/-- The number that a label draws for the side. -/
def WireLabel.drawn? (side : Side) : WireLabel → Option Int32
  | .draw actor sequence => if actor = side then some sequence else none
  | _ => none

section Simulation

variable (methods : Side → List RemoteMethod) (labels : List WireLabel)

/-- The two sides stand for a session. -/
def Represents (wire : Wire) (session : Session) : Prop :=
  ∀ side, ∃ origins,
    Stands methods labels side (wire side) (session side) origins
      (wire side.other).contents (wire side.other).reader

/-- A session gets by some steps to what the two sides stand for. -/
def Reaches (session : Session) (next : Wire)
    (draws : Side → List Int32) : Prop :=
  ∃ steps target,
    run Session.step session steps = some target ∧
      Represents methods labels next target ∧
        ∀ side, steps.filterMap (SessionLabel.drawn? side) = draws side

end Simulation

section Simulation

variable {methods : Side → List RemoteMethod} {labels : List WireLabel}
variable {wire next : Wire} {session target : Session} {actor : Side}

theorem represents_of_sides {origins theirs : List Nat}
    (own :
      Stands methods labels actor (wire actor) (session actor) origins
        (wire actor.other).contents (wire actor.other).reader)
    (other :
      Stands methods labels actor.other (wire actor.other)
        (session actor.other) theirs (wire actor).contents
        (wire actor).reader) :
    Represents methods labels wire session := by
  intro side
  rcases side.eq_or_eq_other actor with rfl | rfl
  · exact ⟨origins, own⟩
  · rw [Side.other_other]
    exact ⟨theirs, other⟩

theorem Represents.other (represents : Represents methods labels wire session)
    (actor : Side) :
    ∃ theirs,
      Stands methods labels actor.other (wire actor.other)
        (session actor.other) theirs (wire actor).contents
        (wire actor).reader := by
  have stands := represents actor.other
  rw [Side.other_other] at stands
  exact stands

/-- One side acts. -/
theorem Represents.update
    (represents : Represents methods labels wire session) {peer : Peer}
    {endpoint : Endpoint} {origins : List Nat}
    (own :
      Stands methods labels actor peer endpoint origins
        (wire actor.other).contents (wire actor.other).reader)
    (grows : (wire actor).contents <+: peer.contents)
    (sameReader : peer.reader = (wire actor).reader) :
    Represents methods labels (Function.update wire actor peer)
      (Function.update session actor endpoint) := by
  obtain ⟨theirs, other⟩ := represents.other actor
  refine
    @represents_of_sides methods labels _ _ actor origins theirs ?_ ?_
  · rw [Function.update_self, Function.update_self,
      Function.update_of_ne actor.other_ne]
    exact own
  · rw [Function.update_self, Function.update_of_ne actor.other_ne,
      Function.update_of_ne actor.other_ne, sameReader]
    exact other.grown grows

/-- One side reads what the other has written. -/
theorem represents_of_read {sender peer : Peer} {origins theirs : List Nat}
    (own :
      Stands methods labels actor peer (target actor) origins
        sender.contents sender.reader)
    (other :
      Stands methods labels actor.other sender (target actor.other) theirs
        peer.contents peer.reader) :
    Represents methods labels
      (Function.update (Function.update wire actor.other sender) actor peer)
      target := by
  refine
    @represents_of_sides methods labels _ _ actor origins theirs ?_ ?_
  · rw [Function.update_self, Function.update_of_ne actor.other_ne,
      Function.update_self]
    exact own
  · rw [Function.update_self, Function.update_of_ne actor.other_ne,
      Function.update_self]
    exact other

theorem reaches_of_step (step : SessionLabel) {draws : Side → List Int32}
    (stepped : session.step step = some target)
    (represents : Represents methods labels next target)
    (drawn :
      ∀ side, [step].filterMap (SessionLabel.drawn? side) = draws side) :
    Reaches methods labels session next draws := by
  refine ⟨[step], target, ?_, represents, drawn⟩
  rw [run_cons_eq_some_iff]
  exact ⟨target, stepped, rfl⟩

/-! ## What a step does -/

theorem reaches_draw (represents : Represents methods labels wire session)
    {sequence : Int32}
    (stepped :
      Wire.step methods wire (.draw actor sequence) = some next) :
    Reaches methods labels session next fun side =>
      [WireLabel.draw actor sequence].filterMap
        (WireLabel.drawn? side) := by
  obtain ⟨origins, stands⟩ := represents actor
  cases stepped
  apply reaches_of_step (.draw actor sequence) rfl
  · apply represents.update
    · apply stands.draws
      rw [stands.drawn]
    · exact List.prefix_refl _
    · rfl
  · intro side
    rfl

theorem reaches_discard
    (represents : Represents methods labels wire session) {position : Nat}
    (stepped :
      Wire.step methods wire (.discard actor position) = some next) :
    Reaches methods labels session next fun _ => [] := by
  obtain ⟨origins, stands⟩ := represents actor
  cases stepped
  apply reaches_of_step (.discard actor position) rfl
  · apply represents.update
    · apply stands.draws
      rw [stands.drawn]
    · exact List.prefix_refl _
    · rfl
  · intro side
    rfl

theorem reaches_call (represents : Represents methods labels wire session)
    {position : Nat} {kind : MessageKind} {timeout : Int} {call : RemoteCall}
    (made : Wire.Made methods (.call actor position kind timeout call))
    (stepped :
      Wire.step methods wire (.call actor position kind timeout call) =
        some next) :
    Reaches methods labels session next fun _ => [] := by
  obtain ⟨origins, stands⟩ := represents actor
  obtain ⟨sequence, drawn, sends⟩ := Option.bind_eq_some_iff.mp stepped
  simp only [Option.ite_none_left_eq_some] at sends
  obtain ⟨own, sends⟩ := sends
  obtain ⟨connection, sent, rfl⟩ := Option.map_eq_some_iff.mp sends
  have sentToo :
      (session actor).connection.step (.send kind sequence timeout) =
        some (connection.rename (answeredCall origins)) := by
    rw [stands.connection]
    exact RpcConnection.step_rename sent
  apply reaches_of_step (.call actor position kind timeout)
  · simp only [Session.step, stands.drawn, drawn, Option.bind_some,
      if_neg own, sentToo, Option.map_some]
    rfl
  · apply represents.update
    · have sends :=
        stands.sends sent (.request call)
          (congrArg (fun drawn => drawn.eraseIdx position) stands.drawn) []
          (fun _ member => absurd member List.not_mem_nil) ⟨own, made⟩
      rw [List.append_nil, stands.drawn] at sends
      exact sends
    · exact List.prefix_append _ _
    · rfl
  · intro side
    rfl

theorem reaches_write (represents : Represents methods labels wire session)
    {index : Nat} (legible : wire.Legible (.write actor index))
    (stepped : Wire.step methods wire (.write actor index) = some next) :
    Reaches methods labels session next fun _ => [] := by
  obtain ⟨origins, stands⟩ := represents actor
  obtain ⟨message, found, writes⟩ := Option.bind_eq_some_iff.mp stepped
  simp only [Option.ite_none_right_eq_some] at writes
  obtain ⟨⟨sending, unwritten⟩, writes⟩ := writes
  obtain ⟨content, present, rfl⟩ := Option.map_eq_some_iff.mp writes
  obtain ⟨packet, isPacket, standsAfter⟩ :=
    stands.writes found present (legible message found content present)
  have foundToo :
      (session actor).connection.messages[index]? =
        some (message.rename (answeredCall origins)) := by
    rw [stands.connection]
    exact RpcConnection.getElem?_rename found
  have waits :
      (message.rename (answeredCall origins)).pc = .sending ∧
        index ∉ (session actor).written :=
    ⟨sending, stands.written ▸ unwritten⟩
  apply reaches_of_step (.write actor index)
  · simp only [Session.step, foundToo, Option.bind_some, if_pos waits,
      isPacket, Option.map_some]
    rfl
  · exact represents.update standsAfter (List.prefix_refl _) rfl
  · intro side
    rfl

theorem Endpoint.allows_congr {first second : Endpoint}
    (same : first.written = second.written) (label : RpcLabel) :
    first.allows label = second.allows label := by
  cases label with
  | sent index => exact congrArg (fun written => written.contains index) same
  | _ => rfl

theorem reaches_own (represents : Represents methods labels wire session)
    {label : RpcLabel}
    (stepped : Wire.step methods wire (.own actor label) = some next) :
    Reaches methods labels session next fun _ => [] := by
  obtain ⟨origins, stands⟩ := represents actor
  simp only [Wire.step, Option.ite_none_right_eq_some] at stepped
  obtain ⟨allowed, moves⟩ := stepped
  obtain ⟨connection, moved, rfl⟩ := Option.map_eq_some_iff.mp moves
  have notSend :
      ∀ kind sequence timeout, label ≠ .send kind sequence timeout := by
    rintro kind sequence timeout rfl
    cases allowed
  have notReply :
      ∀ sequence reply, label ≠ .takeReply sequence reply := by
    rintro sequence reply rfl
    cases allowed
  have sameLabel : label.rename (answeredCall origins) = label := by
    cases label with
    | takeReply sequence reply => exact absurd rfl (notReply sequence reply)
    | _ => rfl
  have movedToo :
      (session actor).connection.step label =
        some (connection.rename (answeredCall origins)) := by
    have renamed :=
      @RpcConnection.step_rename (answeredCall origins) _ _ _ moved
    rw [sameLabel] at renamed
    rw [stands.connection]
    exact renamed
  have allowedToo : (session actor).allows label = true :=
    (Endpoint.allows_congr stands.written label).trans allowed
  apply reaches_of_step (.own actor label)
  · simp only [Session.step, if_pos allowedToo, movedToo, Option.map_some]
    rfl
  · exact
      represents.update (stands.moved moved notSend notReply)
        (List.prefix_refl _) rfl
  · intro side
    rfl

theorem reaches_lose (represents : Represents methods labels wire session)
    (stepped : Wire.step methods wire (.lose actor) = some next) :
    Reaches methods labels session next fun _ => [] := by
  obtain ⟨origins, stands⟩ := represents actor
  obtain ⟨theirs, other⟩ := represents.other actor
  cases stepped
  apply reaches_of_step (.lose actor) rfl
  · refine
      @represents_of_sides methods labels _ _ actor origins theirs ?_ ?_
    · rw [Function.update_self, Function.update_self,
        Function.update_of_ne actor.other_ne.symm, Function.update_self]
      apply stands.carries stands.written List.Forall₂.nil
      · intro text member
        cases member
      · intro _
        exact ⟨[], [], rfl, rfl, rfl⟩
    · rw [Function.update_self, Function.update_of_ne actor.other_ne,
        Function.update_of_ne actor.other_ne.symm, Function.update_self]
      exact other.reads {}
  · intro side
    rfl

/-! ## What reading does -/

/-- The number of the call is not in use, as long as the answers are to calls
of messages that are there. -/
theorem lookup_concat_of_lt {answers : List (Nat × Nat)} {bound asked : Nat}
    (below : ∀ answer ∈ answers, answer.1 < bound) :
    (answers ++ [(bound, asked)]).lookup bound = some asked := by
  have absent : answers.lookup bound = none := by
    rw [List.lookup_eq_none_iff]
    intro answer member
    exact bne_iff_ne.mpr (Nat.ne_of_gt (below answer member))
  rw [List.lookup_append, absent]
  exact List.lookup_cons_self

section Reading

variable {stream : List UInt8} {rest : List Packet} {reader : SocketReader}
variable {origins theirs : List Nat}

/-- A call is read: the servant's result is sent back, or nothing. -/
theorem reaches_readCall
    (interface : Interface (methods actor))
    (own :
      Stands methods labels actor (wire actor) (session actor) origins
        (wire actor.other).contents (wire actor.other).reader)
    (drained :
      Stands methods labels actor.other { wire actor.other with stream }
        { session actor.other with outgoing := rest } theirs
        (wire actor).contents reader)
    {kind : MessageKind} {sequence : Int32} {index : Nat} {text : List Char}
    (first : (session actor.other).outgoing = .call kind sequence index :: rest)
    (carries :
      Carries methods labels actor.other (wire actor.other).contents
        (wire actor).contents (.call kind sequence index) text)
    {length : Nat} {servant : Option Servant} {throws : Bool}
    (member : WireLabel.read actor length servant throws ∈ labels) :
    ∃ message, receivedMessage (Utf16.encode text) = some message ∧
      ∀ peer,
        ({ wire actor with reader } : Peer).dispatchMsg
            (servant.map (servantAdapter (methods actor))) message =
          some peer →
        Reaches methods labels session
          (Function.update
            (Function.update wire actor.other
              { wire actor.other with stream })
            actor peer)
          fun _ => [] := by
  obtain ⟨call, isCall, isOwn, known, undisturbed, rfl⟩ := carries
  rw [Side.other_other] at known
  obtain ⟨message, arrives, calltype, isSequence, msgcls, msg, decoded⟩ :=
    @receivedMessage_request _ _ kind sequence interface known undisturbed
  refine ⟨message, arrives, ?_⟩
  intro peer dispatched
  have notReturn : message.calltype &&& returnBit = 0 := by
    rw [calltype]
    exact (calltype_call isOwn).2
  rw [Peer.dispatchMsg_of_call notReturn] at dispatched
  rcases dispatchReceived_request interface known isOwn calltype msgcls msg
    decoded servant with
    silent | ⟨chosen, value, reply, rfl, expects, served, isReply, answered⟩
  · rw [silent] at dispatched
    cases dispatched
    apply reaches_of_step (.receive actor false)
    · simp only [Session.step, first]
      rfl
    · apply represents_of_read
      · rw [Function.update_of_ne actor.other_ne.symm]
        exact own.reads reader
      · rw [Function.update_self]
        exact drained
    · intro side
      rfl
  · rw [answered] at dispatched
    obtain ⟨connection, sent, rfl⟩ :
        ∃ connection,
          (wire actor).connection.step (.send .reply reply.sequence 0) =
              some connection ∧
            { wire actor with
                reader
                connection
                contents := (wire actor).contents ++ [.answer reply] } =
              peer := by
      simpa [Peer.sendReply] using dispatched
    rw [isReply.sequence, isSequence] at sent
    have sentToo :
        (session actor).connection.step (.send .reply sequence 0) =
          some (connection.rename (answeredCall origins)) := by
      rw [own.connection]
      exact RpcConnection.step_rename sent
    apply reaches_of_step (.receive actor true)
    · simp only [Session.step, first, expects, if_true, sentToo,
        Option.map_some]
      rfl
    · apply represents_of_read
      · rw [Function.update_self]
        have sameLength :
            (session actor).connection.messages.length =
              (wire actor).connection.messages.length := by
          rw [own.connection, RpcConnection.rename, List.length_map]
        rw [sameLength]
        apply
          (own.reads reader).sends sent (.answer reply) own.drawn
            [((wire actor).connection.messages.length, index)]
        · intro answer isNew
          rw [List.mem_singleton.mp isNew]
        · refine
            ⟨rfl, index, call, lookup_concat_of_lt own.answered, isCall,
              known, value, ⟨length, chosen, throws, member, served⟩, ?_⟩
          rw [← isSequence]
          exact isReply
      · rw [Function.update_of_ne actor.other_ne, Function.update_self]
        exact drained.grown (List.prefix_append _ _)
    · intro side
      rfl

/-- A reply is read, which is the one to the call that it names. -/
theorem reaches_readReply
    (interface : Interface (methods actor.other))
    (own :
      Stands methods labels actor (wire actor) (session actor) origins
        (wire actor.other).contents (wire actor.other).reader)
    (drained :
      Stands methods labels actor.other { wire actor.other with stream }
        { session actor.other with outgoing := rest } theirs
        (wire actor).contents reader)
    {sequence : Int32} {index : Nat} {text : List Char}
    (first : (session actor.other).outgoing = .reply sequence index :: rest)
    (carries :
      Carries methods labels actor.other (wire actor.other).contents
        (wire actor).contents (.reply sequence index) text)
    (adapter : Option (RpcCommAdapterXML ServantOperation)) :
    ∃ message, receivedMessage (Utf16.encode text) = some message ∧
      ∀ peer,
        ({ wire actor with reader } : Peer).dispatchMsg adapter message =
          some peer →
        Reaches methods labels session
          (Function.update
            (Function.update wire actor.other
              { wire actor.other with stream })
            actor peer)
          fun _ => [] := by
  obtain ⟨call, reply, isCall, ⟨known, value, offered, isReply⟩, rfl⟩ :=
    carries
  obtain ⟨message, arrives, calltype, isSequence, reads⟩ :=
    receivedMessage_reply interface known isReply
  refine ⟨message, arrives, ?_⟩
  intro peer dispatched
  rw [Peer.dispatchMsg_of_return calltype] at dispatched
  obtain ⟨connection, taken, rfl⟩ := Option.map_eq_some_iff.mp dispatched
  have readsBack : ReadsBack labels actor call message.toRpcMessageXML :=
    ⟨message.root, value, message.hasRoot, reads, offered⟩
  rw [isSequence] at taken
  have takenToo := own.step_takeReply taken index
  apply reaches_of_step (.receive actor true)
  · simp only [Session.step, first, takenToo, Option.map_some]
    rfl
  · apply represents_of_read
    · rw [Function.update_self]
      exact (own.reads reader).takes taken isCall readsBack
    · rw [Function.update_of_ne actor.other_ne, Function.update_self]
      exact drained
  · intro side
    rfl

end Reading

theorem reaches_read (interfaces : ∀ side, Interface (methods side))
    (represents : Represents methods labels wire session) {length : Nat}
    {servant : Option Servant} {throws : Bool}
    (legible : wire.Legible (.read actor length servant throws))
    (member : WireLabel.read actor length servant throws ∈ labels)
    (stepped :
      Wire.step methods wire (.read actor length servant throws) =
        some next) :
    Reaches methods labels session next fun _ => [] := by
  obtain ⟨origins, own⟩ := represents actor
  obtain ⟨theirs, other⟩ := represents.other actor
  obtain ⟨texts, carried, isMessage, streams⟩ := other.outgoing
  obtain ⟨whole, marked⟩ := legible
  simp only [Wire.step, Option.ite_none_right_eq_some] at stepped
  obtain ⟨⟨reading, -⟩, moves⟩ := stepped
  rcases receive_cases throws isMessage streams reading whole marked with
    ⟨same, left⟩ | ⟨text, later, rfl, handed, left⟩
  · rw [Peer.receive_of_same same] at moves
    cases moves
    refine ⟨[], session, rfl, ?_, fun _ => rfl⟩
    apply represents_of_read
    · exact own.reads _
    · exact other.carries other.written carried isMessage left
  · obtain ⟨packet, rest, carries, carriedRest, first⟩ :=
      List.forall₂_cons_right_iff.mp carried
    have areMessages : ∀ text ∈ later, IsMessage text :=
      fun text inLater => isMessage text (List.mem_cons_of_mem _ inLater)
    have drained := other.carries other.written carriedRest areMessages left
    rw [Peer.receive_of_handed handed] at moves
    cases packet with
    | call kind sequence index =>
        obtain ⟨message, arrives, reaches⟩ :=
          reaches_readCall (interfaces actor) own drained first carries member
        rw [arrives] at moves
        obtain ⟨peer, dispatched, rfl⟩ := Option.map_eq_some_iff.mp moves
        exact reaches peer dispatched
    | reply sequence index =>
        obtain ⟨message, arrives, reaches⟩ :=
          reaches_readReply (interfaces actor.other) own drained first carries
            (servant.map (servantAdapter (methods actor)))
        rw [arrives] at moves
        obtain ⟨peer, dispatched, rfl⟩ := Option.map_eq_some_iff.mp moves
        exact reaches peer dispatched

/-- A step of the two sides is a step of the session, or none. -/
theorem reaches_step (interfaces : ∀ side, Interface (methods side))
    (represents : Represents methods labels wire session)
    {label : WireLabel} (made : Wire.Made methods label)
    (legible : wire.Legible label) (member : label ∈ labels)
    (stepped : Wire.step methods wire label = some next) :
    Reaches methods labels session next fun side =>
      [label].filterMap (WireLabel.drawn? side) := by
  cases label with
  | draw actor sequence => exact reaches_draw represents stepped
  | discard actor position => exact reaches_discard represents stepped
  | call actor position kind timeout call =>
      exact reaches_call represents made stepped
  | write actor index => exact reaches_write represents legible stepped
  | read actor length servant throws =>
      exact reaches_read interfaces represents legible member stepped
  | own actor label => exact reaches_own represents stepped
  | lose actor => exact reaches_lose represents stepped

/-! ## Runs -/

/-- A run of the two sides is a run of the session. -/
theorem reaches_run (interfaces : ∀ side, Interface (methods side))
    (represents : Represents methods labels wire session)
    {steps : List WireLabel} {final : Wire}
    (made : ∀ label ∈ steps, Wire.Made methods label)
    (legible : Along (Wire.step methods) Wire.Legible wire steps)
    (within : ∀ label ∈ steps, label ∈ labels)
    (execution : run (Wire.step methods) wire steps = some final) :
    Reaches methods labels session final fun side =>
      steps.filterMap (WireLabel.drawn? side) := by
  induction steps generalizing wire session with
  | nil =>
      cases execution
      exact ⟨[], session, rfl, represents, fun _ => rfl⟩
  | cons label steps inductionHypothesis =>
      obtain ⟨next, stepped, runs⟩ := run_cons_eq_some_iff.mp execution
      obtain ⟨first, middle, firstRun, representsNext, firstDraws⟩ :=
        reaches_step interfaces represents (made label List.mem_cons_self)
          legible.1 (within label List.mem_cons_self) stepped
      obtain ⟨second, target, secondRun, representsFinal, secondDraws⟩ :=
        inductionHypothesis representsNext
          (fun label later => made label (List.mem_cons_of_mem _ later))
          (legible.2 next stepped)
          (fun label later => within label (List.mem_cons_of_mem _ later))
          runs
      refine ⟨first ++ second, target, ?_, representsFinal, ?_⟩
      · rw [run_append, firstRun]
        exact secondRun
      · intro side
        rw [List.filterMap_append, firstDraws, secondDraws,
          ← List.filterMap_append]
        rfl

theorem represents_start :
    Represents methods labels Wire.start Session.start := by
  intro side
  have nothing : Streams {} [] [] := fun _ => ⟨[], [], rfl, rfl, rfl⟩
  refine ⟨[], rfl, rfl, rfl, rfl, ?_, ?_, ⟨?_, ?_⟩, rfl, ?_, ?_⟩
  · intro answer member
    cases member
  · intro index message content found
    cases found
  · intro message member
    cases member
  · intro delivery member
    cases member
  · intro reply m2 isReply
    cases isReply
  · refine ⟨[], .nil, ?_, nothing⟩
    intro text member
    cases member

end Simulation

theorem isIdentifier_locate : isIdentifier "locate".toList = true := by
  decide

/-- A method that is given a position and returns one. -/
def locateMethod : RemoteMethod where
  name := ⟨"locate".toList, isIdentifier_locate⟩
  params := [@IdlType.parameterType zeroTypes gpsType]
  result := some (@IdlType.parameterType zeroTypes gpsType)

/-- Both servants have the method. -/
def locateMethods : Side → List RemoteMethod := fun _ => [locateMethod]

def locateRequest : RemoteCall where
  method := locateMethod
  arguments := (((5 : BitVec 32), ()), ())

def newObject : (result : Option ParameterType) →
    result.elim Unit ParameterType.Value
  | none => ()
  | some type => type.initial

def MessageContent.isRequest : MessageContent → Bool
  | .request _ => true
  | .answer _ => false

/-- A servant that returns a new object. -/
def newObjects : Servant := fun method _ => some (newObject method.result)

/-- A call that is read in two pieces, and its reply. -/
def locatedOnce : List WireLabel :=
  [.draw .left 1, .call .left 0 .twoWay 0 locateRequest, .write .left 0,
    .own .left (.sent 0), .own .left (.wait 0),
    .read .right 40 (some newObjects) false,
    .read .right 65 (some newObjects) false, .write .right 0,
    .read .left 113 none false, .own .left (.deliver 0)]

theorem interface_locateMethods (side : Side) :
    Interface (locateMethods side) where
  distinct := List.nodup_cons.mpr ⟨List.not_mem_nil, List.nodup_nil⟩
  inverse := by
    intro method member type isType
    rw [List.mem_singleton.mp member] at isType
    rcases List.mem_append.mp isType with isParameter | isResult
    · rw [List.mem_singleton.mp isParameter]
      exact inverse_gpsType
    · rw [List.mem_singleton.mp isResult]
      exact inverse_gpsType

theorem made_locatedOnce :
    ∀ label ∈ locatedOnce, Wire.Made locateMethods label := by
  have undisturbed :
      Undisturbed [] locateRequest.method.params locateRequest.arguments := by
    refine ⟨?_, trivial⟩
    intro first isFirst
    cases isFirst
  have known : locateRequest.method ∈ locateMethods .right :=
    List.mem_singleton.mpr rfl
  simp [locatedOnce, Wire.Made, undisturbed, known, Side.other]

theorem runs_locatedOnce :
    (run (Wire.step locateMethods) Wire.start locatedOnce).isSome := by
  decide +kernel

theorem answered_locatedOnce :
    let caller :=
      outcome (Wire.step locateMethods) Wire.start locatedOnce
        runs_locatedOnce .left
    caller.connection.messages.map (fun message => message.result) =
        [some 0] ∧
      caller.contents.map MessageContent.isRequest = [true] := by
  decide +kernel

end LocationServer

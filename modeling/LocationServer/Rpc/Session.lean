import LocationServer.Rpc.OwnCalls
import Mathlib.Logic.Function.Basic

/-!
# Two connected peers (`RpcConnection_SocketXML.java`)

Each side of a socket calls the other and answers its calls.  A call draws its
number when its message is made, `sendMessage` registers the message, and
`sendDetail` writes it to the socket, which keeps the order.  The reader thread
of the other side hands a call to the adapter, whose delegate may send a
`RETURN` message under the number of the call, and a `RETURN` message to
`doReturnMsg`.

Nothing synchronises the counter of the numbers (`++_seq`): two callers can
draw one number, or one that has been drawn long before.  So a draw gives any
number here, and what needs numbers that are not in use says so.

A packet carries the position of its call among the messages of the caller in
the place of the parameters or the result: a reply tells which call it answers.
Both sides may lose what is under way and connect again.
-/

namespace LocationServer

open StepSystem

inductive Side where
  | left
  | right
  deriving DecidableEq, Repr

def Side.other : Side → Side
  | .left => .right
  | .right => .left

@[simp]
theorem Side.other_other (side : Side) : side.other.other = side := by
  cases side <;> rfl

@[simp]
theorem Side.other_ne (side : Side) : side.other ≠ side := by
  cases side <;> decide

theorem Side.eq_or_eq_other (side chosen : Side) :
    side = chosen ∨ side = chosen.other := by
  cases side <;> cases chosen <;> decide

inductive Packet where
  | call (kind : MessageKind) (sequence : Int32) (index : Nat)
  | reply (sequence : Int32) (index : Nat)
  deriving DecidableEq, Repr

def Packet.call? : Packet → Option (Int32 × Nat)
  | .call _ sequence index => some (sequence, index)
  | .reply _ _ => none

def Packet.reply? : Packet → Option (Int32 × Nat)
  | .call _ _ _ => none
  | .reply sequence index => some (sequence, index)

structure Endpoint where
  connection : RpcConnection := {}
  /-- The numbers of the calls that are made but not sent yet. -/
  drawn : List Int32 := []
  /-- The `RETURN` messages, each with the call of the peer that it answers. -/
  answers : List (Nat × Nat) := []
  /-- The messages that have been written to the socket. -/
  written : List Nat := []
  /-- What was written and has not been read by the peer. -/
  outgoing : List Packet := []

abbrev Session := Side → Endpoint

inductive SessionLabel where
  /-- `getUniqueSequence` gives the number. -/
  | draw (side : Side) (sequence : Int32)
  /-- The message goes out over another connection, or never. -/
  | discard (side : Side) (position : Nat)
  | call (side : Side) (position : Nat) (kind : MessageKind) (timeout : Int)
  | write (side : Side) (index : Nat)
  | receive (side : Side) (answers : Bool)
  /-- A step of the callers, of `doReturnMsg` or of `onDisconnected`. -/
  | own (side : Side) (label : RpcLabel)
  | lose (side : Side)
  deriving DecidableEq, Repr

namespace Endpoint

/-- What `sendDetail` writes for a message. -/
def packet (endpoint : Endpoint) (index : Nat) (message : RpcMessage) :
    Option Packet :=
  if message.kind = .reply then
    (endpoint.answers.lookup index).map (Packet.reply message.sequence)
  else some (.call message.kind message.sequence index)

/-- `sendDetail` returns after it has written, and numbers are only drawn by
`draw`. -/
def allows (endpoint : Endpoint) : RpcLabel → Bool
  | .send _ _ _ => false
  | .takeReply _ _ => false
  | .sent index => endpoint.written.contains index
  | _ => true

/-- The own calls that are still to be written. -/
def unsent (endpoint : Endpoint) : List (Int32 × Nat) :=
  (List.range endpoint.connection.messages.length).filterMap fun index =>
    endpoint.connection.messages[index]?.bind fun message =>
      if message.kind ≠ .reply ∧ message.pc = .sending ∧
          index ∉ endpoint.written then
        some (message.sequence, index)
      else none

/-- The calls of the peer whose answers are still to be written. -/
def unanswered (endpoint : Endpoint) : List (Int32 × Nat) :=
  endpoint.answers.filterMap fun answer =>
    endpoint.connection.messages[answer.1]?.bind fun message =>
      if message.kind = .reply ∧ message.pc = .sending ∧
          answer.1 ∉ endpoint.written then
        some (message.sequence, answer.2)
      else none

/-- The own calls whose packets the peer has not read. -/
def asked (endpoint : Endpoint) : List (Int32 × Nat) :=
  endpoint.unsent ++ endpoint.outgoing.filterMap Packet.call?

/-- The calls of the peer whose replies it has not read. -/
def answering (endpoint : Endpoint) : List (Int32 × Nat) :=
  endpoint.unanswered ++ endpoint.outgoing.filterMap Packet.reply?

theorem mem_unsent_iff {endpoint : Endpoint} {sequence : Int32}
    {index : Nat} :
    (sequence, index) ∈ endpoint.unsent ↔
      ∃ message, endpoint.connection.messages[index]? = some message ∧
        message.kind ≠ .reply ∧ message.pc = .sending ∧
          index ∉ endpoint.written ∧ message.sequence = sequence := by
  rw [unsent, List.mem_filterMap]
  constructor
  · rintro ⟨position, -, found⟩
    obtain ⟨message, present, chosen⟩ := Option.bind_eq_some_iff.mp found
    simp only [Option.ite_none_right_eq_some, Option.some.injEq,
      Prod.mk.injEq] at chosen
    obtain ⟨⟨own, sending, unwritten⟩, isSequence, rfl⟩ := chosen
    exact ⟨message, present, own, sending, unwritten, isSequence⟩
  · rintro ⟨message, present, own, sending, unwritten, rfl⟩
    obtain ⟨bound, -⟩ := List.getElem?_eq_some_iff.mp present
    refine ⟨index, List.mem_range.mpr bound, ?_⟩
    rw [present, Option.bind_some, if_pos ⟨own, sending, unwritten⟩]

theorem mem_unanswered_iff {endpoint : Endpoint} {sequence : Int32}
    {index : Nat} :
    (sequence, index) ∈ endpoint.unanswered ↔
      ∃ position message, (position, index) ∈ endpoint.answers ∧
        endpoint.connection.messages[position]? = some message ∧
          message.kind = .reply ∧ message.pc = .sending ∧
            position ∉ endpoint.written ∧ message.sequence = sequence := by
  rw [unanswered, List.mem_filterMap]
  constructor
  · rintro ⟨⟨position, answered⟩, member, found⟩
    obtain ⟨message, present, chosen⟩ := Option.bind_eq_some_iff.mp found
    simp only [Option.ite_none_right_eq_some, Option.some.injEq,
      Prod.mk.injEq] at chosen
    obtain ⟨⟨isReply, sending, unwritten⟩, isSequence, rfl⟩ := chosen
    exact
      ⟨position, message, member, present, isReply, sending, unwritten,
        isSequence⟩
  · rintro ⟨position, message, member, present, isReply, sending,
      unwritten, rfl⟩
    refine ⟨(position, index), member, ?_⟩
    rw [present, Option.bind_some, if_pos ⟨isReply, sending, unwritten⟩]

end Endpoint

namespace Session

/-- The calls of a side that are on their way to the peer or whose replies are
on their way back, with their numbers. -/
def engaged (session : Session) (side : Side) : List (Int32 × Nat) :=
  (session side).asked ++ (session side.other).answering

def step (session : Session) : SessionLabel → Option Session
  | .draw side sequence =>
      let endpoint := session side
      some
        (Function.update session side
          { endpoint with drawn := endpoint.drawn ++ [sequence] })
  | .discard side position =>
      let endpoint := session side
      some
        (Function.update session side
          { endpoint with drawn := endpoint.drawn.eraseIdx position })
  | .call side position kind timeout =>
      let endpoint := session side
      endpoint.drawn[position]?.bind fun sequence =>
        if kind = .reply then none
        else
          (endpoint.connection.step (.send kind sequence timeout)).map
            fun connection =>
              Function.update session side
                { endpoint with
                  connection
                  drawn := endpoint.drawn.eraseIdx position }
  | .write side index =>
      let endpoint := session side
      endpoint.connection.messages[index]?.bind fun message =>
        if message.pc = .sending ∧ index ∉ endpoint.written then
          (endpoint.packet index message).map fun packet =>
            Function.update session side
              { endpoint with
                written := endpoint.written ++ [index]
                outgoing := endpoint.outgoing ++ [packet] }
        else none
  | .receive side answers =>
      let endpoint := session side
      let peer := session side.other
      match peer.outgoing with
      | [] => none
      | .reply sequence index :: rest =>
          (endpoint.connection.step (.takeReply sequence index)).map
            fun connection =>
              Function.update
                (Function.update session side.other
                  { peer with outgoing := rest })
                side { endpoint with connection }
      | .call kind sequence index :: rest =>
          if answers then
            if kind.expectsReply then
              (endpoint.connection.step (.send .reply sequence 0)).map
                fun connection =>
                  Function.update
                    (Function.update session side.other
                      { peer with outgoing := rest })
                    side
                    { endpoint with
                      connection
                      answers :=
                        endpoint.answers ++
                          [(endpoint.connection.messages.length, index)] }
            else none
          else
            some
              (Function.update session side.other
                { peer with outgoing := rest })
  | .own side label =>
      let endpoint := session side
      if endpoint.allows label then
        (endpoint.connection.step label).map fun connection =>
          Function.update session side { endpoint with connection }
      else none
  | .lose side =>
      some
        (Function.update session side
          { session side with outgoing := [] })

def start : Session := fun _ => {}

/-- No call that is made, or under way, or whose reply is under way has the
number that is drawn. -/
def Fresh (session : Session) : SessionLabel → Prop
  | .draw side sequence =>
      sequence ∉ (session side).drawn ∧
        sequence ∉ (session.engaged side).map Prod.fst
  | _ => True

instance (session : Session) : DecidablePred session.Fresh
  | .draw _ _ => inferInstanceAs (Decidable (_ ∧ _))
  | .discard _ _ => inferInstanceAs (Decidable True)
  | .call _ _ _ _ => inferInstanceAs (Decidable True)
  | .write _ _ => inferInstanceAs (Decidable True)
  | .receive _ _ => inferInstanceAs (Decidable True)
  | .own _ _ => inferInstanceAs (Decidable True)
  | .lose _ => inferInstanceAs (Decidable True)

/-! ## What a step can do -/

inductive Moved (session : Session) : SessionLabel → Session → Prop where
  | draw (side : Side) (sequence : Int32) :
      Moved session (.draw side sequence)
        (Function.update session side
          { session side with
            drawn := (session side).drawn ++ [sequence] })
  | discard (side : Side) (position : Nat) :
      Moved session (.discard side position)
        (Function.update session side
          { session side with
            drawn := (session side).drawn.eraseIdx position })
  | call (side : Side) (position : Nat) (kind : MessageKind)
      (timeout : Int) (sequence : Int32) (connection : RpcConnection)
      (drawn : (session side).drawn[position]? = some sequence)
      (own : kind ≠ .reply)
      (sent :
        RpcConnection.Moved (session side).connection
          (.send kind sequence timeout) connection) :
      Moved session (.call side position kind timeout)
        (Function.update session side
          { session side with
            connection
            drawn := (session side).drawn.eraseIdx position })
  | write (side : Side) (index : Nat) (message : RpcMessage)
      (packet : Packet)
      (found : (session side).connection.messages[index]? = some message)
      (sending : message.pc = .sending)
      (unwritten : index ∉ (session side).written)
      (isPacket : (session side).packet index message = some packet) :
      Moved session (.write side index)
        (Function.update session side
          { session side with
            written := (session side).written ++ [index]
            outgoing := (session side).outgoing ++ [packet] })
  | takeReply (side : Side) (answers : Bool) (sequence : Int32)
      (index : Nat) (rest : List Packet) (connection : RpcConnection)
      (first :
        (session side.other).outgoing = .reply sequence index :: rest)
      (taken :
        RpcConnection.Moved (session side).connection
          (.takeReply sequence index) connection) :
      Moved session (.receive side answers)
        (Function.update
          (Function.update session side.other
            { session side.other with outgoing := rest })
          side { session side with connection })
  | answer (side : Side) (kind : MessageKind) (sequence : Int32)
      (index : Nat) (rest : List Packet) (connection : RpcConnection)
      (first :
        (session side.other).outgoing =
          .call kind sequence index :: rest)
      (expects : kind.expectsReply = true)
      (sent :
        RpcConnection.Moved (session side).connection
          (.send .reply sequence 0) connection) :
      Moved session (.receive side true)
        (Function.update
          (Function.update session side.other
            { session side.other with outgoing := rest })
          side
          { session side with
            connection
            answers :=
              (session side).answers ++
                [((session side).connection.messages.length, index)] })
  | ignore (side : Side) (kind : MessageKind) (sequence : Int32)
      (index : Nat) (rest : List Packet)
      (first :
        (session side.other).outgoing =
          .call kind sequence index :: rest) :
      Moved session (.receive side false)
        (Function.update session side.other
          { session side.other with outgoing := rest })
  | own (side : Side) (label : RpcLabel) (connection : RpcConnection)
      (allowed : (session side).allows label = true)
      (stepped :
        (session side).connection.step label = some connection) :
      Moved session (.own side label)
        (Function.update session side { session side with connection })
  | lose (side : Side) :
      Moved session (.lose side)
        (Function.update session side
          { session side with outgoing := [] })

theorem moved_of_step {session next : Session} {label : SessionLabel}
    (stepped : session.step label = some next) :
    Moved session label next := by
  cases label with
  | draw side sequence =>
      rw [← Option.some.inj stepped]
      exact Moved.draw side sequence
  | discard side position =>
      rw [← Option.some.inj stepped]
      exact Moved.discard side position
  | call side position kind timeout =>
      obtain ⟨sequence, drawn, sends⟩ := Option.bind_eq_some_iff.mp stepped
      simp only [Option.ite_none_left_eq_some] at sends
      obtain ⟨own, sends⟩ := sends
      obtain ⟨connection, sent, isNext⟩ := Option.map_eq_some_iff.mp sends
      rw [← isNext]
      exact
        Moved.call side position kind timeout sequence connection drawn own
          (RpcConnection.moved_of_step sent)
  | write side index =>
      obtain ⟨message, found, writes⟩ := Option.bind_eq_some_iff.mp stepped
      simp only [Option.ite_none_right_eq_some] at writes
      obtain ⟨⟨sending, unwritten⟩, writes⟩ := writes
      obtain ⟨packet, isPacket, isNext⟩ := Option.map_eq_some_iff.mp writes
      rw [← isNext]
      exact
        Moved.write side index message packet found sending unwritten
          isPacket
  | receive side answers =>
      simp only [step] at stepped
      split at stepped
      · cases stepped
      · rename_i sequence index rest first
        obtain ⟨connection, taken, isNext⟩ :=
          Option.map_eq_some_iff.mp stepped
        rw [← isNext]
        exact
          Moved.takeReply side answers sequence index rest connection first
            (RpcConnection.moved_of_step taken)
      · rename_i kind sequence index rest first
        cases answers with
        | false =>
            rw [← Option.some.inj stepped]
            exact Moved.ignore side kind sequence index rest first
        | true =>
            simp only [if_true, Option.ite_none_right_eq_some] at stepped
            obtain ⟨expects, sends⟩ := stepped
            obtain ⟨connection, sent, isNext⟩ :=
              Option.map_eq_some_iff.mp sends
            rw [← isNext]
            exact
              Moved.answer side kind sequence index rest connection first
                expects (RpcConnection.moved_of_step sent)
  | own side label =>
      simp only [step, Option.ite_none_right_eq_some] at stepped
      obtain ⟨allowed, moves⟩ := stepped
      obtain ⟨connection, moved, isNext⟩ := Option.map_eq_some_iff.mp moves
      rw [← isNext]
      exact Moved.own side label connection allowed moved
  | lose side =>
      rw [← Option.some.inj stepped]
      exact Moved.lose side

end Session

end LocationServer

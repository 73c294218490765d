import LocationServer.Rpc.SessionSafety

/-!
# No reply is lost

When one side calls and the other one answers, nothing else enters the table
of the caller.  Because `sendMessage` registers a call before `sendDetail`
writes it, the reply finds the call in the table however early it comes: when
nothing is under way any more, every call that expects a reply has it.
-/

namespace LocationServer

open StepSystem

/-! ## One connection -/

/-- The result of a message is set, or its callback has been called. -/
def RpcMessage.Replied (message : RpcMessage) : Prop :=
  if message.kind = .async then message.callbacks ≠ []
  else message.result.isSome = true

theorem RpcMessage.replied_callReturn (message : RpcMessage)
    (reply : Nat) : (message.callReturn reply).Replied := by
  by_cases isAsync : message.kind = .async
  · simp [callReturn, Replied, isAsync]
  · simp [callReturn, Replied, isAsync]

namespace RpcConnection

variable {state next : RpcConnection} {label : RpcLabel}

theorem replied_set {index other : Nat} {before after message
      later : RpcMessage}
    (found : state.messages[index]? = some before)
    (sameMessages : next.messages = state.messages.set index after)
    (keeps : before.Replied → after.Replied)
    (present : state.messages[other]? = some message)
    (foundLater : next.messages[other]? = some later)
    (replied : message.Replied) : later.Replied := by
  rw [sameMessages] at foundLater
  rcases Threads.getElem?_set_cases foundLater with
    ⟨here, isAfter⟩ | ⟨-, unmoved⟩
  · rw [here] at found
    rw [isAfter]
    apply keeps
    rw [← Option.some.inj (present.symm.trans found)]
    exact replied
  · rw [← Option.some.inj (present.symm.trans unmoved)]
    exact replied

/-- A message that has been replied to stays so. -/
theorem replied_of_moved (moved : Moved state label next) {index : Nat}
    {message later : RpcMessage}
    (present : state.messages[index]? = some message)
    (foundLater : next.messages[index]? = some later)
    (replied : message.Replied) : later.Replied := by
  have same :
      next.messages = state.messages → later.Replied := by
    intro sameMessages
    rw [sameMessages, present] at foundLater
    rw [← Option.some.inj foundLater]
    exact replied
  cases moved with
  | send kind sequence timeout unlocked =>
      obtain ⟨bound, -⟩ := List.getElem?_eq_some_iff.mp present
      dsimp only at foundLater
      rw [List.getElem?_append_left bound, present] at foundLater
      rw [← Option.some.inj foundLater]
      exact replied
  | unsolicited sequence reply unlocked absent => exact same rfl
  | beginDisconnect unlocked => exact same rfl
  | endDisconnect locked allFailed => exact same rfl
  | deliver position other reply before waits found =>
      refine replied_set found rfl ?_ present foundLater replied
      exact fun _ => before.replied_callReturn reply
  | sent other before found sending =>
      refine replied_set found rfl ?_ present foundLater replied
      exact id
  | failSend other before found unlocked =>
      refine replied_set found rfl ?_ present foundLater replied
      exact id
  | takeReply sequence reply other before unlocked entry found =>
      refine replied_set found rfl ?_ present foundLater replied
      exact id
  | fail other before found locked entry notYet =>
      refine replied_set found rfl ?_ present foundLater replied
      exact id
  | wait other before found =>
      refine replied_set found rfl ?_ present foundLater replied
      exact id
  | wake other before found =>
      refine replied_set found rfl ?_ present foundLater replied
      exact id
  | inspect other before found =>
      refine replied_set found rfl ?_ present foundLater replied
      exact id

/-- Without a failure the connection stays unlocked. -/
theorem unlocked_of_moved (moved : Moved state label next)
    (unlocked : state.disconnecting = false)
    (noLoss : label ≠ .beginDisconnect) : next.disconnecting = false := by
  cases moved with
  | beginDisconnect _ => exact absurd rfl noLoss
  | endDisconnect locked allFailed => rfl
  | _ => exact unlocked

/-- An entry stays in the table until its number is used or replied to, or its
send fails. -/
theorem entry_of_moved (moved : Moved state label next)
    (unlocked : state.disconnecting = false) {sequence : Int32}
    {index : Nat} (entry : state.msglist sequence = some index)
    (noSend :
      ∀ kind timeout, label ≠ .send kind sequence timeout)
    (noReply : ∀ reply, label ≠ .takeReply sequence reply)
    (noFailure : ∀ other, label ≠ .failSend other) :
    next.msglist sequence = some index := by
  cases moved with
  | send kind number timeout _ =>
      have different : sequence ≠ number := by
        rintro rfl
        exact noSend kind timeout rfl
      exact (Function.update_of_ne different _ _).trans entry
  | takeReply number reply other message _ _ found =>
      have different : sequence ≠ number := by
        rintro rfl
        exact noReply reply rfl
      exact (Function.update_of_ne different _ _).trans entry
  | failSend other message found _ => exact absurd rfl (noFailure other)
  | endDisconnect locked allFailed =>
      exact absurd (locked.symm.trans unlocked) (by decide)
  | _ => exact entry

/-- A matched reply stays to be delivered, or has been delivered. -/
theorem delivering_of_moved (moved : Moved state label next) {index : Nat}
    {reply : Nat} (waits : (index, reply) ∈ state.delivering) :
    (index, reply) ∈ next.delivering ∨
      ∃ message, next.messages[index]? = some message ∧
        message.Replied := by
  cases moved with
  | takeReply sequence taken other message unlocked entry found =>
      exact Or.inl (List.mem_append_left _ waits)
  | deliver position other taken message present found =>
      obtain ⟨bound, here⟩ := List.getElem?_eq_some_iff.mp present
      have split := (List.getElem_cons_eraseIdx_perm bound).symm.subset waits
      rw [here] at split
      rcases List.mem_cons.mp split with isDelivered | remains
      · right
        rw [(Prod.mk.inj isDelivered).1]
        exact
          ⟨_, Threads.getElem?_set_moved found _,
            message.replied_callReturn taken⟩
      · exact Or.inl remains
  | _ => exact Or.inl waits

theorem sending_set {index other : Nat} {before after later : RpcMessage}
    (found : state.messages[index]? = some before)
    (sending : before.pc = .sending)
    (keeps : other = index → after.pc = .sending)
    (foundLater : (state.messages.set other after)[index]? = some later) :
    later.pc = .sending := by
  rcases Threads.getElem?_set_cases foundLater with
    ⟨here, isAfter⟩ | ⟨-, unmoved⟩
  · rw [isAfter]
    exact keeps here
  · rw [← Option.some.inj (found.symm.trans unmoved)]
    exact sending

theorem step_of_sent {kind : MessageKind} {sequence : Int32} {timeout : Int}
    (sent : Moved state (.send kind sequence timeout) next) :
    state.step (.send kind sequence timeout) = some next := by
  cases sent with
  | send _ _ _ unlocked =>
      simp only [step, unlocked, Bool.false_eq_true, if_false]

theorem step_of_taken {sequence : Int32} {reply : Nat}
    (taken : Moved state (.takeReply sequence reply) next) :
    state.step (.takeReply sequence reply) = some next := by
  cases taken with
  | unsolicited _ _ unlocked absent =>
      simp only [step, unlocked, Bool.false_eq_true, if_false, absent]
  | takeReply _ _ index message unlocked entry found =>
      simp only [step, unlocked, Bool.false_eq_true, if_false, entry, found,
        Option.map_some]

theorem entry_of_sent {kind : MessageKind} {sequence : Int32}
    {timeout : Int} (sent : Moved state (.send kind sequence timeout) next) :
    next.msglist sequence = some state.messages.length := by
  cases sent with
  | send _ _ _ unlocked => exact Function.update_self _ _ _

/-- A reply whose number has an entry is matched. -/
theorem delivering_of_taken {sequence : Int32} {reply index : Nat}
    (taken : Moved state (.takeReply sequence reply) next)
    (entry : state.msglist sequence = some index) :
    (index, reply) ∈ next.delivering := by
  cases taken with
  | unsolicited _ _ unlocked absent =>
      rw [entry] at absent
      cases absent
  | takeReply _ _ other message unlocked here found =>
      rw [Option.some.inj (entry.symm.trans here)]
      exact List.mem_append_right _ (List.Mem.head [])

/-- A message that is being sent stays so until the send returns. -/
theorem sending_of_step (stepped : state.step label = some next)
    {index : Nat} {before : RpcMessage}
    (found : state.messages[index]? = some before)
    (sending : before.pc = .sending) (notSent : label ≠ .sent index)
    (notFailed : label ≠ .failSend index) :
    ∃ after, next.messages[index]? = some after ∧
      before.Kept after ∧ after.pc = .sending := by
  obtain ⟨after, foundAfter, kept⟩ :=
    keepsMessages_of_moved (moved_of_step stepped) index before found
  refine ⟨after, foundAfter, kept, ?_⟩
  have notMoved :
      ∀ {other : Nat} {message : RpcMessage} {pc : CallerPc},
        state.messages[other]? = some message → message.pc = pc →
          pc ≠ .sending → other ≠ index := by
    rintro other message pc present isPc different rfl
    apply different
    rw [← isPc, Option.some.inj (present.symm.trans found)]
    exact sending
  have same : next.messages = state.messages → after.pc = .sending := by
    intro sameMessages
    rw [sameMessages, found] at foundAfter
    rw [← Option.some.inj foundAfter]
    exact sending
  cases label with
  | send kind sequence timeout =>
      simp only [step, Option.ite_none_left_eq_some] at stepped
      obtain ⟨-, isNext⟩ := stepped
      obtain ⟨bound, -⟩ := List.getElem?_eq_some_iff.mp found
      rw [← Option.some.inj isNext] at foundAfter
      dsimp only at foundAfter
      rw [List.getElem?_append_left bound, found] at foundAfter
      rw [← Option.some.inj foundAfter]
      exact sending
  | sent other =>
      obtain ⟨message, present, isNext⟩ := Option.bind_eq_some_iff.mp stepped
      simp only [Option.ite_none_right_eq_some] at isNext
      rw [← Option.some.inj isNext.2] at foundAfter
      refine sending_set found sending ?_ foundAfter
      rintro rfl
      exact absurd rfl notSent
  | failSend other =>
      obtain ⟨message, present, isNext⟩ := Option.bind_eq_some_iff.mp stepped
      simp only [Option.ite_none_right_eq_some] at isNext
      rw [← Option.some.inj isNext.2] at foundAfter
      refine sending_set found sending ?_ foundAfter
      rintro rfl
      exact absurd rfl notFailed
  | takeReply sequence reply =>
      cases moved_of_step stepped with
      | unsolicited _ _ unlocked absent => exact same rfl
      | takeReply _ _ other message unlocked entry present =>
          refine sending_set found sending ?_ foundAfter
          rintro rfl
          rw [Option.some.inj (present.symm.trans found)]
          exact sending
  | deliver position =>
      cases moved_of_step stepped with
      | deliver _ other reply message waits present =>
          refine sending_set found sending ?_ foundAfter
          rintro rfl
          rw [Option.some.inj (present.symm.trans found), RpcMessage.callReturn]
          split
          · exact sending
          · exact congrArg CallerPc.notified sending
  | beginDisconnect =>
      cases moved_of_step stepped with
      | beginDisconnect _ => exact same rfl
  | fail other =>
      cases moved_of_step stepped with
      | fail _ message present locked entry notYet =>
          refine sending_set found sending ?_ foundAfter
          rintro rfl
          rw [Option.some.inj (present.symm.trans found)]
          exact congrArg CallerPc.notified sending
  | endDisconnect =>
      cases moved_of_step stepped with
      | endDisconnect _ _ => exact same rfl
  | wait other =>
      obtain ⟨message, present, isNext⟩ := Option.bind_eq_some_iff.mp stepped
      simp only [Option.ite_none_right_eq_some] at isNext
      rw [← Option.some.inj isNext.2] at foundAfter
      refine sending_set found sending ?_ foundAfter
      exact fun here =>
        absurd here (notMoved present isNext.1 CallerPc.noConfusion)
  | wake other =>
      obtain ⟨message, present, isNext⟩ := Option.bind_eq_some_iff.mp stepped
      simp only [Option.ite_none_right_eq_some] at isNext
      rw [← Option.some.inj isNext.2] at foundAfter
      refine sending_set found sending ?_ foundAfter
      exact fun here =>
        absurd here (notMoved present isNext.1 CallerPc.noConfusion)
  | inspect other =>
      obtain ⟨message, present, isNext⟩ := Option.bind_eq_some_iff.mp stepped
      simp only [Option.ite_none_right_eq_some] at isNext
      rw [← Option.some.inj isNext.2] at foundAfter
      refine sending_set found sending ?_ foundAfter
      exact fun here =>
        absurd here (notMoved present isNext.1 CallerPc.noConfusion)

end RpcConnection

/-! ## One endpoint -/

/-- A packet is that of a message of the endpoint. -/
def Packet.SentBy (endpoint : Endpoint) : Packet → Prop
  | .call kind sequence index =>
      ∃ message, endpoint.connection.messages[index]? = some message ∧
        message.kind = kind ∧ message.sequence = sequence ∧ kind ≠ .reply
  | .reply sequence _ =>
      ∃ message ∈ endpoint.connection.messages,
        message.kind = .reply ∧ message.sequence = sequence

/-- What a step without failures does to one side: only the right one sends
replies, and nothing else. -/
inductive Turn (side : Side) (before after : Endpoint) : Prop where
  | rest (connection : after.connection = before.connection)
      (answers : after.answers = before.answers)
      (written : after.written = before.written)
      (outgoing : after.outgoing = before.outgoing)
  | read (packet : Packet)
      (connection : after.connection = before.connection)
      (answers : after.answers = before.answers)
      (written : after.written = before.written)
      (first : before.outgoing = packet :: after.outgoing)
  | wrote (index : Nat) (message : RpcMessage) (packet : Packet)
      (found : before.connection.messages[index]? = some message)
      (isPacket : before.packet index message = some packet)
      (connection : after.connection = before.connection)
      (answers : after.answers = before.answers)
      (written : after.written = before.written ++ [index])
      (outgoing : after.outgoing = before.outgoing ++ [packet])
  | moved (label : RpcLabel)
      (moved :
        RpcConnection.Moved before.connection label after.connection)
      (noLoss : label ≠ .beginDisconnect)
      (noFailure : ∀ index, label ≠ .failSend index)
      (sends :
        ∀ kind sequence timeout, label = .send kind sequence timeout →
          (kind = .reply ↔ side = .right) ∧
            (kind ≠ .reply → sequence ∈ before.drawn))
      (answers :
        after.answers = before.answers ∨
          ∃ call, after.answers =
            before.answers ++ [(before.connection.messages.length, call)])
      (written : after.written = before.written)
      (outgoing : after.outgoing = before.outgoing)

/-- What such steps keep of one side. -/
structure Endpoint.Serving (side : Side) (endpoint : Endpoint) :
    Prop where
  unlocked : endpoint.connection.disconnecting = false
  kinds :
    ∀ message ∈ endpoint.connection.messages,
      (message.kind = .reply ↔ side = .right)
  written :
    ∀ index ∈ endpoint.written, index < endpoint.connection.messages.length
  keys : (endpoint.answers.map Prod.fst).Nodup
  outgoing : ∀ packet ∈ endpoint.outgoing, packet.SentBy endpoint

theorem Packet.sentBy_of_moved {before after : Endpoint}
    {label : RpcLabel}
    (moved : RpcConnection.Moved before.connection label after.connection)
    {packet : Packet} (sent : packet.SentBy before) :
    packet.SentBy after := by
  cases packet with
  | call kind sequence index =>
      obtain ⟨message, found, isKind, isSequence, own⟩ := sent
      obtain ⟨later, foundLater, sameKind, sameSequence, -⟩ :=
        RpcConnection.keepsMessages_of_moved moved index message found
      exact
        ⟨later, foundLater, sameKind.trans isKind,
          sameSequence.trans isSequence, own⟩
  | reply sequence index =>
      obtain ⟨message, member, isReply, isSequence⟩ := sent
      obtain ⟨position, found⟩ := List.mem_iff_getElem?.mp member
      obtain ⟨later, foundLater, sameKind, sameSequence, -⟩ :=
        RpcConnection.keepsMessages_of_moved moved position message found
      exact
        ⟨later, List.mem_of_getElem? foundLater, sameKind.trans isReply,
          sameSequence.trans isSequence⟩

theorem Packet.sentBy_of_same {before after : Endpoint}
    (connection : after.connection = before.connection) {packet : Packet}
    (sent : packet.SentBy before) : packet.SentBy after := by
  cases packet with
  | call kind sequence index =>
      rw [SentBy, connection]
      exact sent
  | reply sequence index =>
      rw [SentBy, connection]
      exact sent

theorem Endpoint.sentBy_packet {endpoint : Endpoint} {index : Nat}
    {message : RpcMessage} {packet : Packet}
    (found : endpoint.connection.messages[index]? = some message)
    (isPacket : endpoint.packet index message = some packet) :
    packet.SentBy endpoint := by
  rw [Endpoint.packet] at isPacket
  split at isPacket
  · rename_i isReply
    obtain ⟨call, -, rfl⟩ := Option.map_eq_some_iff.mp isPacket
    exact ⟨message, List.mem_of_getElem? found, isReply, rfl⟩
  · rename_i own
    rw [← Option.some.inj isPacket]
    exact ⟨message, found, rfl, rfl, own⟩

theorem Endpoint.lookup_answer {answers : List (Nat × Nat)}
    (keys : (answers.map Prod.fst).Nodup) {index call : Nat}
    (member : (index, call) ∈ answers) :
    answers.lookup index = some call := by
  induction answers with
  | nil => cases member
  | cons first answers inductionHypothesis =>
      rw [List.map_cons, List.nodup_cons] at keys
      rcases List.mem_cons.mp member with rfl | older
      · exact List.lookup_cons_self
      · have different : (index == first.1) = false := by
          apply beq_false_of_ne
          intro same
          apply keys.1
          rw [← same]
          exact List.mem_map.mpr ⟨(index, call), older, rfl⟩
        rw [List.lookup_cons, different]
        exact inductionHypothesis keys.2 older

namespace Endpoint.Serving

variable {side : Side} {before after : Endpoint}

theorem start : Endpoint.Serving side {} where
  unlocked := rfl
  kinds := by
    intro message member
    cases member
  written := by
    intro index member
    cases member
  keys := List.nodup_nil
  outgoing := by
    intro packet member
    cases member

/-- The connection stays as it is. -/
theorem of_same (serving : Endpoint.Serving side before)
    (connection : after.connection = before.connection)
    (answers : after.answers = before.answers)
    (written :
      ∀ index ∈ after.written, index ∈ before.written ∨
        ∃ message, before.connection.messages[index]? = some message)
    (outgoing :
      ∀ packet ∈ after.outgoing,
        packet ∈ before.outgoing ∨ packet.SentBy before) :
    Endpoint.Serving side after where
  unlocked := by
    rw [connection]
    exact serving.unlocked
  kinds := by
    rw [connection]
    exact serving.kinds
  written := by
    intro index member
    rw [connection]
    rcases written index member with earlier | ⟨message, found⟩
    · exact serving.written index earlier
    · exact (List.getElem?_eq_some_iff.mp found).1
  keys := by
    rw [answers]
    exact serving.keys
  outgoing := by
    intro packet member
    refine Packet.sentBy_of_same connection ?_
    rcases outgoing packet member with earlier | sent
    · exact serving.outgoing packet earlier
    · exact sent

theorem kinds_of_moved (serving : Endpoint.Serving side before)
    {label : RpcLabel}
    (moved : RpcConnection.Moved before.connection label after.connection)
    (sends :
      ∀ kind sequence timeout, label = .send kind sequence timeout →
        (kind = .reply ↔ side = .right)) :
    ∀ message ∈ after.connection.messages,
      (message.kind = .reply ↔ side = .right) := by
  intro message member
  obtain ⟨index, found⟩ := List.mem_iff_getElem?.mp member
  rcases RpcConnection.before_of_moved moved found with
    ⟨earlier, present, sameKind, -⟩ |
      ⟨-, kind, sequence, timeout, isSend, isNew⟩
  · rw [sameKind]
    exact serving.kinds earlier (List.mem_of_getElem? present)
  · rw [isNew]
    exact sends kind sequence timeout isSend

theorem of_turn (serving : Endpoint.Serving side before)
    (known :
      ∀ answer ∈ before.answers,
        answer.1 < before.connection.messages.length)
    (turn : Turn side before after) : Endpoint.Serving side after := by
  cases turn with
  | rest connection answers written outgoing =>
      refine serving.of_same connection answers ?_ ?_
      · rw [written]
        exact fun index => Or.inl
      · rw [outgoing]
        exact fun packet => Or.inl
  | read packet connection answers written first =>
      refine serving.of_same connection answers ?_ ?_
      · rw [written]
        exact fun index => Or.inl
      · rw [first]
        exact fun other member => Or.inl (List.mem_cons_of_mem packet member)
  | wrote index message packet found isPacket connection answers written
      outgoing =>
      refine serving.of_same connection answers ?_ ?_
      · rw [written]
        intro other member
        rcases List.mem_append.mp member with earlier | latest
        · exact Or.inl earlier
        · rw [List.mem_singleton.mp latest]
          exact Or.inr ⟨message, found⟩
      · rw [outgoing]
        intro other member
        rcases List.mem_append.mp member with earlier | latest
        · exact Or.inl earlier
        · rw [List.mem_singleton.mp latest]
          exact Or.inr (Endpoint.sentBy_packet found isPacket)
  | moved label moved noLoss noFailure sends answers written outgoing =>
      constructor
      · exact RpcConnection.unlocked_of_moved moved serving.unlocked noLoss
      · refine serving.kinds_of_moved moved ?_
        exact fun kind sequence timeout isSend =>
          (sends kind sequence timeout isSend).1
      · intro index member
        rw [written] at member
        have bound := serving.written index member
        obtain ⟨later, found, -⟩ :=
          RpcConnection.keepsMessages_of_moved moved index _
            (List.getElem?_eq_getElem bound)
        exact (List.getElem?_eq_some_iff.mp found).1
      · rcases answers with same | ⟨call, added⟩
        · rw [same]
          exact serving.keys
        · rw [added, List.map_append]
          refine
            List.nodup_append.mpr
              ⟨serving.keys, by simp, ?_⟩
          intro key earlier other latest
          obtain ⟨answer, isAnswer, rfl⟩ := List.mem_map.mp earlier
          rw [List.mem_singleton.mp latest]
          exact Nat.ne_of_lt (known answer isAnswer)
      · rw [outgoing]
        intro packet member
        exact Packet.sentBy_of_moved moved (serving.outgoing packet member)

end Endpoint.Serving

namespace Session

variable {session next : Session} {label : SessionLabel}

/-! ## A side that calls and a side that answers -/

/-- The left side calls, and the right side answers every call that expects a
reply and no other one.  No send fails, and nothing is lost. -/
def serves (session : Session) : SessionLabel → Bool
  | .call side _ _ _ => side = .left
  | .receive .right answers =>
      match (session .left).outgoing with
      | .call kind _ _ :: _ => answers = kind.expectsReply
      | _ => true
  | .own _ (.failSend _) => false
  | .own _ .beginDisconnect => false
  | .lose _ => false
  | _ => true

/-- What is asked of each step. -/
def Served (session : Session) (label : SessionLabel) : Prop :=
  session.Fresh label ∧ session.serves label = true

instance (session : Session) : DecidablePred session.Served :=
  fun _ => inferInstanceAs (Decidable (_ ∧ _))

/-- Each side keeps what it serves for. -/
def BothServing (session : Session) : Prop :=
  ∀ side, (session side).Serving side

theorem first_of_left (serving : session.BothServing) {packet : Packet}
    {rest : List Packet}
    (first : (session .left).outgoing = packet :: rest) :
    ∃ kind sequence index message,
      packet = .call kind sequence index ∧
        (session .left).connection.messages[index]? = some message ∧
          message.kind = kind ∧ message.sequence = sequence := by
  have sent :=
    (serving .left).outgoing packet (first ▸ List.Mem.head rest)
  cases packet with
  | call kind sequence index =>
      obtain ⟨message, found, isKind, isSequence, -⟩ := sent
      exact ⟨kind, sequence, index, message, rfl, found, isKind, isSequence⟩
  | reply sequence index =>
      obtain ⟨message, member, isReply, -⟩ := sent
      exact absurd (((serving .left).kinds message member).mp isReply) (by simp)

theorem first_of_right (serving : session.BothServing) {packet : Packet}
    {rest : List Packet}
    (first : (session .right).outgoing = packet :: rest) :
    ∃ sequence index, packet = .reply sequence index := by
  have sent :=
    (serving .right).outgoing packet (first ▸ List.Mem.head rest)
  cases packet with
  | call kind sequence index =>
      obtain ⟨message, found, rfl, -, own⟩ := sent
      exact
        absurd
          (((serving .right).kinds message (List.mem_of_getElem? found)).mpr
            rfl)
          own
  | reply sequence index => exact ⟨sequence, index, rfl⟩

theorem turn_update {actor : Side} {endpoint : Endpoint}
    (turn : Turn actor (session actor) endpoint) (side : Side) :
    Turn side (session side) (Function.update session actor endpoint side) := by
  rcases side.eq_or_eq_other actor with rfl | rfl
  · rw [Function.update_self]
    exact turn
  · rw [update_self_other]
    exact Turn.rest rfl rfl rfl rfl

/-- The actor reads a packet of the other side. -/
theorem turn_read {actor : Side} {endpoint : Endpoint} {packet : Packet}
    {rest : List Packet}
    (first : (session actor.other).outgoing = packet :: rest)
    (turn : Turn actor (session actor) endpoint) (side : Side) :
    Turn side (session side)
      (Function.update
        (Function.update session actor.other
          { session actor.other with outgoing := rest })
        actor endpoint side) := by
  rcases side.eq_or_eq_other actor with rfl | rfl
  · rw [Function.update_self]
    exact turn
  · rw [update_self_other, Function.update_self]
    exact Turn.read packet rfl rfl rfl first

theorem turn_of_moved (serving : session.BothServing)
    (serves : session.serves label = true)
    (moved : Moved session label next) (side : Side) :
    Turn side (session side) (next side) := by
  cases moved with
  | draw actor number =>
      refine turn_update ?_ side
      exact Turn.rest rfl rfl rfl rfl
  | discard actor position =>
      refine turn_update ?_ side
      exact Turn.rest rfl rfl rfl rfl
  | lose actor => cases serves
  | write actor index message packet found sending unwritten isPacket =>
      refine turn_update ?_ side
      exact
        Turn.wrote index message packet found isPacket rfl rfl rfl rfl
  | call actor position kind timeout sequence connection drawn own sent =>
      obtain rfl : actor = .left := of_decide_eq_true serves
      refine turn_update ?_ side
      refine Turn.moved _ sent (by simp) (by simp) ?_ (Or.inl rfl) rfl rfl
      intro other number limit isSend
      cases isSend
      exact ⟨by simp [own], fun _ => List.mem_of_getElem? drawn⟩
  | takeReply actor answers sequence index rest connection first taken =>
      refine turn_read first ?_ side
      exact
        Turn.moved _ taken (by simp) (by simp) (by simp) (Or.inl rfl) rfl
          rfl
  | ignore actor kind sequence index rest first =>
      rcases side.eq_or_eq_other actor.other with rfl | rfl
      · rw [Function.update_self]
        exact Turn.read _ rfl rfl rfl first
      · rw [update_self_other]
        exact Turn.rest rfl rfl rfl rfl
  | answer actor kind sequence index rest connection first expects sent =>
      cases actor with
      | left =>
          obtain ⟨_, _, isReply⟩ := first_of_right serving first
          cases isReply
      | right =>
          refine turn_read first ?_ side
          refine
            Turn.moved _ sent (by simp) (by simp) ?_ (Or.inr ⟨index, rfl⟩)
              rfl rfl
          intro other number limit isSend
          cases isSend
          simp
  | own actor rpcLabel connection allowed stepped =>
      refine turn_update ?_ side
      refine
        Turn.moved rpcLabel (RpcConnection.moved_of_step stepped) ?_ ?_ ?_
          (Or.inl rfl) rfl rfl
      · rintro rfl
        cases serves
      · rintro index rfl
        cases serves
      · rintro kind sequence timeout rfl
        cases allowed

/-! ## Calls that are under way stay so until their replies are taken -/

/-- A connection that moves, without a failing send, keeps what it asks and
answers. -/
theorem Narrows.of_step {before after : Endpoint} {rpcLabel : RpcLabel}
    (stepped : before.connection.step rpcLabel = some after.connection)
    (sent : ∀ index, rpcLabel = .sent index → index ∈ before.written)
    (notFailed : ∀ index, rpcLabel ≠ .failSend index)
    (answers : ∀ answer ∈ before.answers, answer ∈ after.answers)
    (written : after.written = before.written)
    (outgoing : after.outgoing = before.outgoing) :
    Narrows after before := by
  have stays :
      ∀ (index : Nat) (message : RpcMessage),
        before.connection.messages[index]? = some message →
          message.pc = .sending → index ∉ before.written →
            ∃ later, after.connection.messages[index]? = some later ∧
              message.Kept later ∧ later.pc = .sending := by
    intro index message found sending unwritten
    refine
      RpcConnection.sending_of_step stepped found sending ?_
        (notFailed index)
    intro isSent
    exact unwritten (sent index isSent)
  refine ⟨?_, ?_⟩
  · rintro ⟨sequence, index⟩ member
    rw [Endpoint.asked, outgoing]
    rcases List.mem_append.mp member with unsent | isSent
    · apply List.mem_append_left
      obtain ⟨message, found, own, sending, unwritten, isSequence⟩ :=
        Endpoint.mem_unsent_iff.mp unsent
      obtain ⟨later, foundLater, ⟨sameKind, sameSequence, -⟩, sendingLater⟩ :=
        stays index message found sending unwritten
      refine
        Endpoint.mem_unsent_iff.mpr
          ⟨later, foundLater, ?_, sendingLater, ?_,
            sameSequence.trans isSequence⟩
      · rw [sameKind]
        exact own
      · rw [written]
        exact unwritten
    · exact List.mem_append_right _ isSent
  · rintro ⟨sequence, call⟩ member
    rw [Endpoint.answering, outgoing]
    rcases List.mem_append.mp member with unanswered | isSent
    · apply List.mem_append_left
      obtain ⟨position, message, answer, found, isReply, sending, unwritten,
        isSequence⟩ := Endpoint.mem_unanswered_iff.mp unanswered
      obtain ⟨later, foundLater, ⟨sameKind, sameSequence, -⟩, sendingLater⟩ :=
        stays position message found sending unwritten
      refine
        Endpoint.mem_unanswered_iff.mpr
          ⟨position, later, answers _ answer, foundLater,
            sameKind.trans isReply, sendingLater, ?_,
            sameSequence.trans isSequence⟩
      rw [written]
      exact unwritten
    · exact List.mem_append_right _ isSent

/-- A message that is written is under way in its packet. -/
theorem Narrows.of_written {before after : Endpoint} {index : Nat}
    {message : RpcMessage} {packet : Packet}
    (keys : (before.answers.map Prod.fst).Nodup)
    (found : before.connection.messages[index]? = some message)
    (isPacket : before.packet index message = some packet)
    (connection : after.connection = before.connection)
    (answers : after.answers = before.answers)
    (written : after.written = before.written ++ [index])
    (outgoing : after.outgoing = before.outgoing ++ [packet]) :
    Narrows after before := by
  have notYet : ∀ position, position ∉ before.written →
      position ≠ index → position ∉ after.written := by
    intro position unwritten different member
    rw [written] at member
    rcases List.mem_append.mp member with earlier | latest
    · exact unwritten earlier
    · exact different (List.mem_singleton.mp latest)
  refine ⟨?_, ?_⟩
  · rintro ⟨sequence, call⟩ member
    rw [Endpoint.asked, outgoing, List.filterMap_append]
    rcases List.mem_append.mp member with unsent | isSent
    · obtain ⟨other, present, own, sending, unwritten, isSequence⟩ :=
        Endpoint.mem_unsent_iff.mp unsent
      by_cases here : call = index
      · rw [here] at present
        obtain rfl := Option.some.inj (found.symm.trans present)
        rw [Endpoint.packet, if_neg own] at isPacket
        rw [← Option.some.inj isPacket, here, isSequence]
        apply List.mem_append_right
        apply List.mem_append_right
        exact List.Mem.head []
      · apply List.mem_append_left
        rw [Endpoint.mem_unsent_iff, connection]
        exact
          ⟨other, present, own, sending, notYet call unwritten here,
            isSequence⟩
    · exact List.mem_append_right _ (List.mem_append_left _ isSent)
  · rintro ⟨sequence, call⟩ member
    rw [Endpoint.answering, outgoing, List.filterMap_append]
    rcases List.mem_append.mp member with unanswered | isSent
    · obtain ⟨position, other, answer, present, isReply, sending, unwritten,
        isSequence⟩ := Endpoint.mem_unanswered_iff.mp unanswered
      by_cases here : position = index
      · rw [here] at present answer
        obtain rfl := Option.some.inj (found.symm.trans present)
        rw [Endpoint.packet, if_pos isReply,
          Endpoint.lookup_answer keys answer] at isPacket
        rw [← Option.some.inj isPacket, isSequence]
        apply List.mem_append_right
        apply List.mem_append_right
        exact List.Mem.head []
      · apply List.mem_append_left
        rw [Endpoint.mem_unanswered_iff, connection, answers]
        exact
          ⟨position, other, answer, present, isReply, sending,
            notYet position unwritten here, isSequence⟩
    · exact List.mem_append_right _ (List.mem_append_left _ isSent)

/-- The right side answers a call exactly when it expects a reply. -/
theorem answers_of_serves {answers : Bool} {kind : MessageKind}
    {sequence : Int32} {index : Nat} {rest : List Packet}
    (serves : session.serves (.receive .right answers) = true)
    (first :
      (session .left).outgoing = .call kind sequence index :: rest) :
    answers = kind.expectsReply := by
  simp only [Session.serves, first] at serves
  exact of_decide_eq_true serves

theorem narrows_update_back {actor : Side} {endpoint : Endpoint}
    (narrows : Narrows endpoint (session actor)) (side : Side) :
    Narrows (Function.update session actor endpoint side) (session side) := by
  rcases side.eq_or_eq_other actor with rfl | rfl
  · rw [Function.update_self]
    exact narrows
  · rw [update_self_other]
    exact Narrows.refl _

/-- The right side reads the call and answers it. -/
theorem unanswered_of_answered {endpoint after : Endpoint}
    (serving : endpoint.Serving .right) {sequence : Int32} {index : Nat}
    (sent :
      RpcConnection.Moved endpoint.connection (.send .reply sequence 0)
        after.connection)
    (answers :
      after.answers =
        endpoint.answers ++ [(endpoint.connection.messages.length, index)])
    (written : after.written = endpoint.written) :
    (sequence, index) ∈ after.answering := by
  apply List.mem_append_left
  refine
    Endpoint.mem_unanswered_iff.mpr
      ⟨endpoint.connection.messages.length,
        { kind := .reply, sequence, timeout := 0 }, ?_, ?_, rfl, rfl, ?_,
        rfl⟩
  · rw [answers]
    exact List.mem_append_right _ (List.Mem.head [])
  · rw [RpcConnection.messages_of_sent sent, List.getElem?_concat_length]
  · rw [written]
    exact fun member => Nat.lt_irrefl _ (serving.written _ member)

/-- A call that expects a reply stays under way until its reply is taken. -/
theorem engaged_or_taken (serving : session.BothServing)
    (serves : session.serves label = true)
    (moved : Moved session label next) {index : Nat} {message : RpcMessage}
    (found : (session .left).connection.messages[index]? = some message)
    (expects : message.kind.expectsReply = true)
    (member : (message.sequence, index) ∈ session.engaged .left) :
    (message.sequence, index) ∈ next.engaged .left ∨
      RpcConnection.Moved (session .left).connection
        (.takeReply message.sequence index) (next .left).connection := by
  cases moved with
  | draw actor number =>
      left
      refine engaged_of_narrows (narrows_update_back ?_) member
      exact Narrows.of_outgoing rfl rfl rfl fun _ => id
  | discard actor position =>
      left
      refine engaged_of_narrows (narrows_update_back ?_) member
      exact Narrows.of_outgoing rfl rfl rfl fun _ => id
  | lose actor => cases serves
  | call actor position kind timeout sequence connection drawn own sent =>
      left
      refine engaged_of_narrows (narrows_update_back ?_) member
      exact
        Narrows.of_step (RpcConnection.step_of_sent sent) (by simp)
          (by simp) (fun _ => id) rfl rfl
  | write actor call sentMessage packet present sending unwritten
      isPacket =>
      left
      refine engaged_of_narrows (narrows_update_back ?_) member
      exact
        Narrows.of_written (serving actor).keys present isPacket rfl rfl rfl
          rfl
  | own actor rpcLabel connection allowed stepped =>
      left
      refine engaged_of_narrows (narrows_update_back ?_) member
      refine Narrows.of_step stepped ?_ ?_ (fun _ => id) rfl rfl
      · rintro call rfl
        exact List.contains_iff_mem.mp allowed
      · rintro call rfl
        cases serves
  | takeReply actor answers sequence call rest connection first taken =>
      cases actor with
      | right =>
          obtain ⟨_, _, _, _, isCall, -⟩ := first_of_left serving first
          cases isCall
      | left =>
          have narrows :
              Narrows { session .left with connection } (session .left) :=
            Narrows.of_step (RpcConnection.step_of_taken taken) (by simp)
              (by simp) (fun _ => id) rfl rfl
          rcases List.mem_append.mp member with asked | answering
          · left
            apply List.mem_append_left
            rw [Function.update_self]
            exact narrows.asked _ asked
          · rcases List.mem_append.mp answering with unanswered | isSent
            · left
              apply List.mem_append_right
              rw [update_self_other, Function.update_self]
              exact List.mem_append_left _ unanswered
            · rw [first, List.filterMap_cons] at isSent
              rcases List.mem_cons.mp isSent with isFirst | later
              · right
                obtain ⟨rfl, rfl⟩ := Prod.mk.inj isFirst
                rw [Function.update_self]
                exact taken
              · left
                apply List.mem_append_right
                rw [update_self_other, Function.update_self]
                exact List.mem_append_right _ later
  | ignore actor kind sequence call rest first =>
      cases actor with
      | left =>
          obtain ⟨_, _, isReply⟩ := first_of_right serving first
          cases isReply
      | right =>
          have heard :
              (session .left).outgoing = .call kind sequence call :: rest :=
            first
          rcases List.mem_append.mp member with asked | answering
          · rcases List.mem_append.mp asked with unsent | isSent
            · left
              apply List.mem_append_left
              exact List.mem_append_left _ unsent
            · rw [heard, List.filterMap_cons] at isSent
              rcases List.mem_cons.mp isSent with isFirst | later
              · -- the call that is read expects no reply
                exfalso
                obtain ⟨_, _, _, read, isCall, present, isKind, -⟩ :=
                  first_of_left serving first
                cases isCall
                obtain ⟨rfl, rfl⟩ := Prod.mk.inj isFirst
                rw [Option.some.inj (found.symm.trans present), isKind,
                  ← answers_of_serves serves heard] at expects
                cases expects
              · left
                apply List.mem_append_left
                exact List.mem_append_right _ later
          · left
            apply List.mem_append_right
            exact answering
  | answer actor kind sequence call rest connection first expects sent =>
      cases actor with
      | left =>
          obtain ⟨_, _, isReply⟩ := first_of_right serving first
          cases isReply
      | right =>
          left
          have heard :
              (session .left).outgoing = .call kind sequence call :: rest :=
            first
          rcases List.mem_append.mp member with asked | answering
          · rcases List.mem_append.mp asked with unsent | isSent
            · apply List.mem_append_left
              exact List.mem_append_left _ unsent
            · rw [heard, List.filterMap_cons] at isSent
              rcases List.mem_cons.mp isSent with isFirst | later
              · apply List.mem_append_right
                rw [isFirst]
                exact
                  unanswered_of_answered (serving .right) sent rfl rfl
              · apply List.mem_append_left
                exact List.mem_append_right _ later
          · have narrows :
                Narrows
                  { session .right with
                    connection
                    answers :=
                      (session .right).answers ++
                        [((session .right).connection.messages.length,
                          call)] }
                  (session .right) :=
              Narrows.of_step (RpcConnection.step_of_sent sent) (by simp)
                (by simp) (fun _ => List.mem_append_left _) rfl rfl
            apply List.mem_append_right
            exact narrows.answering _ answering

/-! ## The invariant of such a session -/

/-- A call has its reply, or will find it. -/
def Awaited (session : Session) (index : Nat) (message : RpcMessage) :
    Prop :=
  ((message.sequence, index) ∈ session.engaged .left ∧
      (session .left).connection.msglist message.sequence = some index) ∨
    (∃ reply, (index, reply) ∈ (session .left).connection.delivering) ∨
      message.Replied

structure Serving (session : Session) : Prop where
  consistent : session.Consistent
  both : session.BothServing
  awaited :
    ∀ (index : Nat) (message : RpcMessage),
      (session .left).connection.messages[index]? = some message →
        message.kind.expectsReply = true → session.Awaited index message

theorem serving_start : start.Serving where
  consistent := consistent_start
  both := fun _ => Endpoint.Serving.start
  awaited := by
    intro index message found
    cases found

/-- A call that was sent before the step. -/
theorem Serving.awaited_of_moved (serving : session.Serving)
    (serves : session.serves label = true)
    (moved : Moved session label next) {index : Nat}
    {message later : RpcMessage}
    (found : (session .left).connection.messages[index]? = some message)
    (foundLater : (next .left).connection.messages[index]? = some later)
    (sameKind : later.kind = message.kind)
    (sameSequence : later.sequence = message.sequence)
    (expects : message.kind.expectsReply = true) :
    next.Awaited index later := by
  have turn := turn_of_moved serving.both serves moved .left
  have stays :
      (next .left).connection = (session .left).connection →
        next.Awaited index later := by
    intro same
    rw [same, found] at foundLater
    obtain rfl := Option.some.inj foundLater
    rcases serving.awaited index message found expects with
      ⟨engaged, entry⟩ | rest
    · rcases engaged_or_taken serving.both serves moved found expects engaged
        with stillEngaged | taken
      · refine Or.inl ⟨stillEngaged, ?_⟩
        rw [same]
        exact entry
      · exact
          Or.inr
            (Or.inl ⟨_, RpcConnection.delivering_of_taken taken entry⟩)
    · right
      rw [same]
      exact rest
  cases turn with
  | rest connection answers written outgoing => exact stays connection
  | read packet connection answers written first => exact stays connection
  | wrote position sentMessage packet present isPacket connection answers
      written outgoing => exact stays connection
  | moved rpcLabel moves noLoss noFailure sends answers written outgoing =>
      rcases serving.awaited index message found expects with
        ⟨engaged, entry⟩ | ⟨reply, waits⟩ | replied
      · rcases engaged_or_taken serving.both serves moved found expects
          engaged with stillEngaged | taken
        · by_cases isTaken :
              ∃ reply, rpcLabel = .takeReply message.sequence reply
          · obtain ⟨reply, rfl⟩ := isTaken
            exact
              Or.inr
                (Or.inl ⟨reply, RpcConnection.delivering_of_taken moves entry⟩)
          · left
            rw [sameSequence]
            refine
              ⟨stillEngaged,
                RpcConnection.entry_of_moved moves
                  (serving.both .left).unlocked entry ?_
                  (fun reply isReply => isTaken ⟨reply, isReply⟩)
                  noFailure⟩
            intro kind timeout isSend
            obtain ⟨isReply, drawn⟩ :=
              sends kind message.sequence timeout isSend
            have own : kind ≠ .reply := by
              intro same
              cases isReply.mp same
            exact
              serving.consistent.unused .left _ (drawn own) index engaged
        · exact
            Or.inr
              (Or.inl ⟨_, RpcConnection.delivering_of_taken taken entry⟩)
      · rcases RpcConnection.delivering_of_moved moves waits with
          stillWaits | ⟨after, foundAfter, replied⟩
        · exact Or.inr (Or.inl ⟨reply, stillWaits⟩)
        · rw [Option.some.inj (foundLater.symm.trans foundAfter)]
          exact Or.inr (Or.inr replied)
      · exact
          Or.inr
            (Or.inr
              (RpcConnection.replied_of_moved moves found foundLater
                replied))

/-- A call is registered before it is written. -/
theorem awaited_of_sent (both : session.BothServing) {kind : MessageKind}
    {sequence : Int32} {timeout : Int} (own : kind ≠ .reply)
    (sent :
      RpcConnection.Moved (session .left).connection
        (.send kind sequence timeout) (next .left).connection)
    (written : (next .left).written = (session .left).written) :
    next.Awaited (session .left).connection.messages.length
      { kind, sequence, timeout } := by
  left
  refine ⟨?_, RpcConnection.entry_of_sent sent⟩
  apply List.mem_append_left
  apply List.mem_append_left
  refine
    Endpoint.mem_unsent_iff.mpr
      ⟨{ kind, sequence, timeout }, ?_, own, rfl, ?_, rfl⟩
  · rw [RpcConnection.messages_of_sent sent, List.getElem?_concat_length]
  · rw [written]
    exact fun member => Nat.lt_irrefl _ ((both .left).written _ member)

theorem Serving.of_moved (serving : session.Serving)
    (served : session.Served label) (moved : Moved session label next) :
    next.Serving where
  consistent := serving.consistent.of_moved served.1 moved
  both := by
    intro side
    exact
      (serving.both side).of_turn (serving.consistent.known side)
        (turn_of_moved serving.both served.2 moved side)
  awaited := by
    intro index later foundLater expects
    have older :
        ∀ message,
          (session .left).connection.messages[index]? = some message →
            message.Kept later → next.Awaited index later := by
      intro message found kept
      obtain ⟨sameKind, sameSequence, -⟩ := kept
      refine
        serving.awaited_of_moved served.2 moved found foundLater sameKind
          sameSequence ?_
      rw [← sameKind]
      exact expects
    have same :
        (next .left).connection = (session .left).connection →
          next.Awaited index later := by
      intro sameConnection
      refine older later ?_ (RpcMessage.Kept.refl later)
      rw [← sameConnection]
      exact foundLater
    cases turn_of_moved serving.both served.2 moved .left with
    | rest connection answers written outgoing => exact same connection
    | read packet connection answers written first =>
        exact same connection
    | wrote position sentMessage packet present isPacket connection answers
        written outgoing => exact same connection
    | moved rpcLabel moves noLoss noFailure sends answers written outgoing =>
        rcases RpcConnection.before_of_moved moves foundLater with
          ⟨message, found, kept⟩ |
            ⟨rfl, kind, sequence, timeout, rfl, rfl⟩
        · exact older message found kept
        · refine awaited_of_sent serving.both ?_ moves written
          rintro rfl
          cases expects

theorem serving_of_run {labels : List SessionLabel} {final : Session}
    (execution : run step start labels = some final)
    (served : Along step Served start labels) : final.Serving :=
  invariant_of_along
    (fun _ _ _ serving served stepped =>
      serving.of_moved served (moved_of_step stepped))
    serving_start served execution

/-! ## Runs -/

/-- When the right side answers the calls of the left one and nothing fails,
every call that expects a reply has its own reply once no call is under way and
no reply is still to be delivered, whatever the order of the steps. -/
theorem every_call_is_answered {labels : List SessionLabel}
    {final : Session} (execution : run step start labels = some final)
    (served : Along step Served start labels)
    (quiet : final.engaged .left = [])
    (delivered : (final .left).connection.delivering = []) (index : Nat)
    (message : RpcMessage)
    (found : (final .left).connection.messages[index]? = some message) :
    (message.kind = .twoWay → message.result = some index) ∧
      (message.kind = .async → message.callbacks = [index]) := by
  have serving := serving_of_run execution served
  have replied :
      message.kind.expectsReply = true → message.Replied := by
    intro expects
    rcases serving.awaited index message found expects with
      ⟨engaged, -⟩ | ⟨reply, waits⟩ | isReplied
    · rw [quiet] at engaged
      cases engaged
    · rw [delivered] at waits
      cases waits
    · exact isReplied
  refine ⟨?_, ?_⟩
  · intro isTwoWay
    have isReplied := replied (by rw [isTwoWay]; rfl)
    rw [RpcMessage.Replied, isTwoWay, if_neg MessageKind.noConfusion,
      Option.isSome_iff_ne_none] at isReplied
    exact
      ((serving.consistent.replies .left found (by simp [isTwoWay])
        ).1.resolve_left isReplied)
  · intro isAsync
    have isReplied := replied (by rw [isAsync]; rfl)
    rw [RpcMessage.Replied, if_pos isAsync] at isReplied
    exact
      ((serving.consistent.replies .left found (by simp [isAsync])
        ).2.resolve_left isReplied)

/-- The replies come before `sendDetail` has returned. -/
def answeredEarly : List SessionLabel :=
  [.draw .left 1, .call .left 0 .twoWay 0, .write .left 0,
    .receive .right true, .write .right 0, .receive .left false,
    .own .left (.deliver 0), .draw .left 2, .call .left 0 .async 0,
    .write .left 1, .own .left (.sent 0), .receive .right true,
    .write .right 1, .own .left (.wait 0), .receive .left false,
    .own .left (.deliver 0)]

theorem every_call_is_answered_early :
    ((outcome step start answeredEarly (by decide)
        .left).connection.messages.map
          (fun message => (message.result, message.callbacks)) =
      [(some 0, []), (none, [1])]) ∧
      ∀ (index : Nat) (message : RpcMessage),
        (outcome step start answeredEarly (by decide)
            .left).connection.messages[index]? = some message →
          (message.kind = .twoWay → message.result = some index) ∧
            (message.kind = .async → message.callbacks = [index]) :=
  ⟨by decide,
    every_call_is_answered
      (run_eq_outcome start answeredEarly (by decide)) (by decide)
      (by decide) (by decide)⟩

end Session

end LocationServer

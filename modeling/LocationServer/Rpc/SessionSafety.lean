import LocationServer.Rpc.Session

/-!
# Replies reach the calls that they answer

In a session of two peers that call each other, a call may stay without a
reply, since the answers of a side share the table with its own calls.  But no
call is ever completed with the reply to another one, as long as a number is
not drawn again while a call of that number is under way.
-/

namespace LocationServer

open StepSystem

/-! ## One endpoint -/

namespace Endpoint

variable {endpoint next : Endpoint} {label : RpcLabel}
variable {sequence : Int32} {index : Nat}

/-- A step of the connection leaves no call to be written but a new one. -/
theorem unsent_of_moved
    (moved :
      RpcConnection.Moved endpoint.connection label next.connection)
    (sameWritten : next.written = endpoint.written)
    (member : (sequence, index) ∈ next.unsent) :
    (sequence, index) ∈ endpoint.unsent ∨
      (index = endpoint.connection.messages.length ∧
        ∃ kind timeout, label = .send kind sequence timeout ∧
          kind ≠ .reply) := by
  obtain ⟨after, found, own, sending, unwritten, isSequence⟩ :=
    mem_unsent_iff.mp member
  rcases RpcConnection.before_of_moved moved found with
    ⟨before, present, sameKind, sameSequence, wasSending⟩ |
      ⟨atEnd, kind, number, timeout, isSend, isNew⟩
  · left
    rw [sameKind] at own
    rw [sameWritten] at unwritten
    exact
      mem_unsent_iff.mpr
        ⟨before, present, own, wasSending sending, unwritten,
          sameSequence.symm.trans isSequence⟩
  · right
    rw [isNew] at own isSequence
    refine ⟨atEnd, kind, timeout, ?_, own⟩
    rw [isSend, ← isSequence]

/-- A step of the connection leaves no answer to be written but a new one. -/
theorem unanswered_of_moved
    (moved :
      RpcConnection.Moved endpoint.connection label next.connection)
    (sameWritten : next.written = endpoint.written)
    (added :
      ∀ answer ∈ next.answers, answer ∈ endpoint.answers ∨
        answer.1 = endpoint.connection.messages.length)
    (member : (sequence, index) ∈ next.unanswered) :
    (sequence, index) ∈ endpoint.unanswered ∨
      ((endpoint.connection.messages.length, index) ∈ next.answers ∧
        ∃ timeout, label = .send .reply sequence timeout) := by
  obtain ⟨position, after, answer, found, isReply, sending, unwritten,
    isSequence⟩ := mem_unanswered_iff.mp member
  rcases RpcConnection.before_of_moved moved found with
    ⟨before, present, sameKind, sameSequence, wasSending⟩ |
      ⟨atEnd, kind, number, timeout, isSend, isNew⟩
  · left
    obtain ⟨bound, -⟩ := List.getElem?_eq_some_iff.mp present
    rcases added (position, index) answer with older | atEnd
    · rw [sameKind] at isReply
      rw [sameWritten] at unwritten
      exact
        mem_unanswered_iff.mpr
          ⟨position, before, older, present, isReply, wasSending sending,
            unwritten, sameSequence.symm.trans isSequence⟩
    · dsimp only at atEnd
      omega
  · right
    rw [isNew] at isReply isSequence
    rw [atEnd] at answer
    refine ⟨answer, timeout, ?_⟩
    rw [isSend, ← isSequence, ← isReply]

/-- A step of the connection asks nothing but a new call. -/
theorem asked_of_moved (endpoint next : Endpoint)
    (moved :
      RpcConnection.Moved endpoint.connection label next.connection)
    (member : (sequence, index) ∈ next.asked)
    (sameWritten : next.written = endpoint.written)
    (sameOutgoing : next.outgoing = endpoint.outgoing) :
    (sequence, index) ∈ endpoint.asked ∨
      (index = endpoint.connection.messages.length ∧
        ∃ kind timeout, label = .send kind sequence timeout ∧
          kind ≠ .reply) := by
  rw [asked, sameOutgoing] at member
  rcases List.mem_append.mp member with unsent | sent
  · rcases unsent_of_moved moved sameWritten unsent with older | new
    · exact Or.inl (List.mem_append_left _ older)
    · exact Or.inr new
  · exact Or.inl (List.mem_append_right _ sent)

/-- A step of the connection answers nothing but a call that it has just
read. -/
theorem answering_of_moved (endpoint next : Endpoint)
    (moved :
      RpcConnection.Moved endpoint.connection label next.connection)
    (member : (sequence, index) ∈ next.answering)
    (sameWritten : next.written = endpoint.written)
    (sameOutgoing : next.outgoing = endpoint.outgoing)
    (added :
      ∀ answer ∈ next.answers, answer ∈ endpoint.answers ∨
        answer.1 = endpoint.connection.messages.length) :
    (sequence, index) ∈ endpoint.answering ∨
      ((endpoint.connection.messages.length, index) ∈ next.answers ∧
        ∃ timeout, label = .send .reply sequence timeout) := by
  rw [answering, sameOutgoing] at member
  rcases List.mem_append.mp member with unanswered | sent
  · rcases unanswered_of_moved moved sameWritten added unanswered with
      older | new
    · exact Or.inl (List.mem_append_left _ older)
    · exact Or.inr new
  · exact Or.inl (List.mem_append_right _ sent)

/-- What is written for a message was waiting to be written. -/
theorem packet_cases {message : RpcMessage} {packet : Packet}
    (found : endpoint.connection.messages[index]? = some message)
    (sending : message.pc = .sending)
    (unwritten : index ∉ endpoint.written)
    (isPacket : endpoint.packet index message = some packet) :
    (∀ item ∈ packet.call?, item ∈ endpoint.unsent) ∧
      ∀ item ∈ packet.reply?, item ∈ endpoint.unanswered := by
  rw [Endpoint.packet] at isPacket
  split at isPacket
  · rename_i isReply
    obtain ⟨answered, looked, rfl⟩ := Option.map_eq_some_iff.mp isPacket
    refine ⟨by simp [Packet.call?], ?_⟩
    intro item isItem
    rw [← Option.some.inj isItem]
    obtain ⟨older, younger, split, -⟩ := List.lookup_eq_some_iff.mp looked
    have answer : (index, answered) ∈ endpoint.answers := by
      rw [split]
      exact List.mem_append_right older (List.Mem.head younger)
    exact
      mem_unanswered_iff.mpr
        ⟨index, message, answer, found, isReply, sending, unwritten, rfl⟩
  · rename_i own
    rw [← Option.some.inj isPacket]
    refine ⟨?_, by simp [Packet.reply?]⟩
    intro item isItem
    rw [← Option.some.inj isItem]
    exact mem_unsent_iff.mpr ⟨message, found, own, sending, unwritten, rfl⟩

end Endpoint

/-! ## Both endpoints -/

namespace Session

variable {session next : Session} {label : SessionLabel}

theorem update_self_other {side : Side} {endpoint : Endpoint} :
    Function.update session side endpoint side.other =
      session side.other :=
  Function.update_of_ne side.other_ne endpoint session

/-- What an endpoint keeps, the session keeps. -/
theorem field_update {α : Type} (field : Endpoint → α) {actor : Side}
    {endpoint : Endpoint} (same : field endpoint = field (session actor))
    (side : Side) :
    field (Function.update session actor endpoint side) =
      field (session side) := by
  rcases side.eq_or_eq_other actor with rfl | rfl
  · rw [Function.update_self, same]
  · rw [update_self_other]

theorem engaged_of_reply {side : Side} {sequence : Int32} {index : Nat}
    {rest : List Packet}
    (first :
      (session side.other).outgoing = .reply sequence index :: rest) :
    (sequence, index) ∈ session.engaged side := by
  apply List.mem_append_right
  apply List.mem_append_right
  rw [first]
  exact List.mem_filterMap.mpr ⟨_, List.Mem.head rest, rfl⟩

/-- Each side of a session moves as a connection does, or keeps its
connection.  It takes only replies to its own calls, and sends a call only
under a number that it has drawn. -/
theorem connection_of_moved (moved : Moved session label next)
    (side : Side) :
    (next side).connection = (session side).connection ∨
      ∃ rpcLabel,
        RpcConnection.Moved (session side).connection rpcLabel
            (next side).connection ∧
          (∀ sequence reply, rpcLabel = .takeReply sequence reply →
            (sequence, reply) ∈ session.engaged side) ∧
          ∀ kind sequence timeout,
            rpcLabel = .send kind sequence timeout → kind ≠ .reply →
              sequence ∈ (session side).drawn := by
  cases moved with
  | draw actor number =>
      exact Or.inl (field_update Endpoint.connection (by rfl) side)
  | discard actor position =>
      exact Or.inl (field_update Endpoint.connection (by rfl) side)
  | write actor index message packet found sending unwritten isPacket =>
      exact Or.inl (field_update Endpoint.connection (by rfl) side)
  | ignore actor kind sequence index rest first =>
      exact Or.inl (field_update Endpoint.connection (by rfl) side)
  | lose actor =>
      exact Or.inl (field_update Endpoint.connection (by rfl) side)
  | call actor position kind timeout sequence connection drawn own sent =>
      rcases side.eq_or_eq_other actor with rfl | rfl
      · right
        rw [Function.update_self]
        refine ⟨_, sent, by simp, ?_⟩
        intro other number limit isSend _
        cases isSend
        exact List.mem_of_getElem? drawn
      · left
        rw [update_self_other]
  | takeReply actor answers sequence index rest connection first taken =>
      rcases side.eq_or_eq_other actor with rfl | rfl
      · right
        rw [Function.update_self]
        refine ⟨_, taken, ?_, by simp⟩
        intro number reply isReply
        cases isReply
        exact engaged_of_reply first
      · left
        rw [update_self_other, Function.update_self]
  | answer actor kind sequence index rest connection first expects sent =>
      rcases side.eq_or_eq_other actor with rfl | rfl
      · right
        rw [Function.update_self]
        refine ⟨_, sent, by simp, ?_⟩
        intro other number limit isSend own
        cases isSend
        exact absurd rfl own
      · left
        rw [update_self_other, Function.update_self]
  | own actor rpcLabel connection allowed stepped =>
      rcases side.eq_or_eq_other actor with rfl | rfl
      · right
        rw [Function.update_self]
        refine ⟨rpcLabel, RpcConnection.moved_of_step stepped, ?_, ?_⟩
        · rintro sequence reply rfl
          cases allowed
        · rintro kind sequence timeout rfl
          cases allowed
      · left
        rw [update_self_other]

/-! ## The calls that are under way -/

/-- An endpoint that asks and answers no more than before. -/
structure Narrows (before after : Endpoint) : Prop where
  asked : ∀ item ∈ after.asked, item ∈ before.asked
  answering : ∀ item ∈ after.answering, item ∈ before.answering

theorem Narrows.refl (endpoint : Endpoint) : Narrows endpoint endpoint :=
  ⟨fun _ => id, fun _ => id⟩

/-- Packets leave the wire. -/
theorem Narrows.of_outgoing {before after : Endpoint}
    (sameConnection : after.connection = before.connection)
    (sameAnswers : after.answers = before.answers)
    (sameWritten : after.written = before.written)
    (fewer : ∀ packet ∈ after.outgoing, packet ∈ before.outgoing) :
    Narrows before after := by
  have kept :
      ∀ (select : Packet → Option (Int32 × Nat)),
        ∀ item ∈ after.outgoing.filterMap select,
          item ∈ before.outgoing.filterMap select := by
    intro select item member
    obtain ⟨packet, sent, selected⟩ := List.mem_filterMap.mp member
    exact List.mem_filterMap.mpr ⟨packet, fewer packet sent, selected⟩
  have sameUnsent : after.unsent = before.unsent := by
    rw [Endpoint.unsent, Endpoint.unsent, sameConnection, sameWritten]
  have sameUnanswered : after.unanswered = before.unanswered := by
    rw [Endpoint.unanswered, Endpoint.unanswered, sameConnection,
      sameAnswers, sameWritten]
  refine ⟨?_, ?_⟩
  · intro item member
    rw [Endpoint.asked, sameUnsent] at member
    rcases List.mem_append.mp member with unsent | sent
    · exact List.mem_append_left _ unsent
    · exact List.mem_append_right _ (kept _ item sent)
  · intro item member
    rw [Endpoint.answering, sameUnanswered] at member
    rcases List.mem_append.mp member with unanswered | sent
    · exact List.mem_append_left _ unanswered
    · exact List.mem_append_right _ (kept _ item sent)

/-- The peer reads a packet. -/
theorem Narrows.of_read {endpoint : Endpoint} {packet : Packet}
    {rest : List Packet} (first : endpoint.outgoing = packet :: rest) :
    Narrows endpoint { endpoint with outgoing := rest } := by
  refine Narrows.of_outgoing rfl rfl rfl ?_
  intro other isLeft
  rw [first]
  exact List.mem_cons_of_mem packet isLeft

/-- The connection moves, but sends neither a call nor an answer. -/
theorem Narrows.of_moved {before after : Endpoint} {rpcLabel : RpcLabel}
    (moved :
      RpcConnection.Moved before.connection rpcLabel after.connection)
    (sameAnswers : after.answers = before.answers)
    (sameWritten : after.written = before.written)
    (sameOutgoing : after.outgoing = before.outgoing)
    (known :
      ∀ answer ∈ before.answers,
        answer.1 < before.connection.messages.length)
    (noCall :
      ∀ kind sequence timeout, rpcLabel = .send kind sequence timeout →
        kind = .reply) :
    Narrows before after := by
  refine ⟨?_, ?_⟩
  · rintro ⟨sequence, index⟩ member
    rcases Endpoint.asked_of_moved before after moved member sameWritten
      sameOutgoing with older | ⟨-, kind, timeout, isSend, own⟩
    · exact older
    · exact absurd (noCall kind sequence timeout isSend) own
  · rintro ⟨sequence, index⟩ member
    rcases Endpoint.answering_of_moved before after moved member sameWritten
      sameOutgoing (fun answer isAnswer => Or.inl (sameAnswers ▸ isAnswer))
      with older | ⟨answer, -⟩
    · exact older
    · rw [sameAnswers] at answer
      exact absurd (known _ answer) (Nat.lt_irrefl _)

/-- A message is written: its call, or the call it answers, was under way
before. -/
theorem Narrows.of_write {before after : Endpoint} {index : Nat}
    {message : RpcMessage} {packet : Packet}
    (found : before.connection.messages[index]? = some message)
    (sending : message.pc = .sending)
    (unwritten : index ∉ before.written)
    (isPacket : before.packet index message = some packet)
    (sameConnection : after.connection = before.connection)
    (sameAnswers : after.answers = before.answers)
    (written : after.written = before.written ++ [index])
    (outgoing : after.outgoing = before.outgoing ++ [packet]) :
    Narrows before after := by
  obtain ⟨calls, replies⟩ :=
    Endpoint.packet_cases found sending unwritten isPacket
  have fewer : ∀ position, position ∉ after.written →
      position ∉ before.written := by
    intro position unwrittenAfter member
    apply unwrittenAfter
    rw [written]
    exact List.mem_append_left [index] member
  refine ⟨?_, ?_⟩
  · rintro ⟨sequence, call⟩ member
    rw [Endpoint.asked, outgoing, List.filterMap_append] at member
    rcases List.mem_append.mp member with unsent | sent
    · apply List.mem_append_left
      rw [Endpoint.mem_unsent_iff, sameConnection] at unsent
      obtain ⟨other, present, own, isSending, notYet, isSequence⟩ := unsent
      exact
        Endpoint.mem_unsent_iff.mpr
          ⟨other, present, own, isSending, fewer call notYet, isSequence⟩
    · rcases List.mem_append.mp sent with earlier | latest
      · exact List.mem_append_right _ earlier
      · apply List.mem_append_left
        obtain ⟨sentPacket, isLatest, isCall⟩ := List.mem_filterMap.mp latest
        rw [List.mem_singleton.mp isLatest] at isCall
        exact calls _ isCall
  · rintro ⟨sequence, call⟩ member
    rw [Endpoint.answering, outgoing, List.filterMap_append] at member
    rcases List.mem_append.mp member with unanswered | sent
    · apply List.mem_append_left
      rw [Endpoint.mem_unanswered_iff, sameConnection, sameAnswers]
        at unanswered
      obtain ⟨position, other, answer, present, isReply, isSending, notYet,
        isSequence⟩ := unanswered
      exact
        Endpoint.mem_unanswered_iff.mpr
          ⟨position, other, answer, present, isReply, isSending,
            fewer position notYet, isSequence⟩
    · rcases List.mem_append.mp sent with earlier | latest
      · exact List.mem_append_right _ earlier
      · apply List.mem_append_left
        obtain ⟨sentPacket, isLatest, isReply⟩ :=
          List.mem_filterMap.mp latest
        rw [List.mem_singleton.mp isLatest] at isReply
        exact replies _ isReply

theorem narrows_update {actor : Side} {endpoint : Endpoint}
    (narrows : Narrows (session actor) endpoint) (side : Side) :
    Narrows (session side) (Function.update session actor endpoint side) := by
  rcases side.eq_or_eq_other actor with rfl | rfl
  · rw [Function.update_self]
    exact narrows
  · rw [update_self_other]
    exact Narrows.refl _

theorem engaged_of_narrows
    (narrows : ∀ side, Narrows (session side) (next side))
    {side : Side} {item : Int32 × Nat} (member : item ∈ next.engaged side) :
    item ∈ session.engaged side := by
  rcases List.mem_append.mp member with asked | answering
  · exact List.mem_append_left _ ((narrows side).asked item asked)
  · exact
      List.mem_append_right _ ((narrows side.other).answering item answering)

/-- The answers of each side are messages that it has sent. -/
def AnswersKnown (session : Session) : Prop :=
  ∀ side, ∀ answer ∈ (session side).answers,
    answer.1 < (session side).connection.messages.length

/-- Only a new call comes to the calls that are under way. -/
theorem engaged_of_moved (known : session.AnswersKnown)
    (moved : Moved session label next) {side : Side} {sequence : Int32}
    {index : Nat} (member : (sequence, index) ∈ next.engaged side) :
    (sequence, index) ∈ session.engaged side ∨
      (index = (session side).connection.messages.length ∧
        ∃ position kind timeout,
          label = .call side position kind timeout ∧
            (session side).drawn[position]? = some sequence ∧
            kind ≠ .reply ∧
              RpcConnection.Moved (session side).connection
                (.send kind sequence timeout) (next side).connection) := by
  cases moved with
  | draw actor number =>
      left
      refine engaged_of_narrows (narrows_update ?_) member
      exact Narrows.of_outgoing rfl rfl rfl fun _ => id
  | discard actor position =>
      left
      refine engaged_of_narrows (narrows_update ?_) member
      exact Narrows.of_outgoing rfl rfl rfl fun _ => id
  | lose actor =>
      left
      refine engaged_of_narrows (narrows_update ?_) member
      exact Narrows.of_outgoing rfl rfl rfl (by simp)
  | ignore actor kind number call rest first =>
      left
      exact
        engaged_of_narrows (narrows_update (Narrows.of_read first)) member
  | write actor call message packet found sending unwritten isPacket =>
      left
      refine engaged_of_narrows (narrows_update ?_) member
      exact
        Narrows.of_write found sending unwritten isPacket rfl rfl rfl rfl
  | own actor rpcLabel connection allowed stepped =>
      left
      refine engaged_of_narrows (narrows_update ?_) member
      refine
        Narrows.of_moved (RpcConnection.moved_of_step stepped) rfl rfl rfl
          (known actor) ?_
      rintro kind number timeout rfl
      cases allowed
  | takeReply actor answers number call rest connection first taken =>
      left
      refine engaged_of_narrows ?_ member
      intro chosen
      rcases chosen.eq_or_eq_other actor with rfl | rfl
      · rw [Function.update_self]
        exact Narrows.of_moved taken rfl rfl rfl (known chosen) (by simp)
      · rw [update_self_other, Function.update_self]
        exact Narrows.of_read first
  | call actor position kind timeout number connection drawn own sent =>
      rcases List.mem_append.mp member with asked | answering
      · rcases side.eq_or_eq_other actor with rfl | rfl
        · rw [Function.update_self] at asked ⊢
          rcases Endpoint.asked_of_moved (session side) _ sent asked rfl rfl
            with older | ⟨atEnd, other, limit, isSend, -⟩
          · exact Or.inl (List.mem_append_left _ older)
          · right
            cases isSend
            exact ⟨atEnd, position, kind, timeout, rfl, drawn, own, sent⟩
        · left
          rw [update_self_other] at asked
          exact List.mem_append_left _ asked
      · left
        apply List.mem_append_right
        rcases side.other.eq_or_eq_other actor with here | elsewhere
        · rw [here, Function.update_self] at answering
          rcases Endpoint.answering_of_moved (session actor) _ sent answering
            rfl rfl (fun _ => Or.inl) with older | ⟨-, limit, isSend⟩
          · rw [here]
            exact older
          · cases isSend
            exact absurd rfl own
        · rw [elsewhere, update_self_other] at answering
          rw [elsewhere]
          exact answering
  | answer actor kind number call rest connection first expects sent =>
      left
      rcases side.eq_or_eq_other actor with rfl | rfl
      · rcases List.mem_append.mp member with asked | answering
        · rw [Function.update_self] at asked
          rcases Endpoint.asked_of_moved (session side) _ sent asked rfl rfl
            with older | ⟨-, other, limit, isSend, own⟩
          · exact List.mem_append_left _ older
          · cases isSend
            exact absurd rfl own
        · rw [update_self_other, Function.update_self] at answering
          exact
            List.mem_append_right _
              ((Narrows.of_read first).answering _ answering)
      · rcases List.mem_append.mp member with asked | answering
        · rw [update_self_other, Function.update_self] at asked
          exact
            List.mem_append_left _ ((Narrows.of_read first).asked _ asked)
        · rw [Side.other_other, Function.update_self] at answering
          have added :
              ∀ answer ∈
                (session actor).answers ++
                  [((session actor).connection.messages.length, call)],
                answer ∈ (session actor).answers ∨
                  answer.1 = (session actor).connection.messages.length := by
            intro answer isAnswer
            rcases List.mem_append.mp isAnswer with older | latest
            · exact Or.inl older
            · rw [List.mem_singleton.mp latest]
              exact Or.inr rfl
          rcases Endpoint.answering_of_moved (session actor) _ sent answering
            rfl rfl added with older | ⟨answer, limit, isSend⟩
          · apply List.mem_append_right
            rw [Side.other_other]
            exact older
          · -- the new answer is that of the call that has just been read
            cases isSend
            rcases List.mem_append.mp answer with older | latest
            · exact absurd (known actor _ older) (Nat.lt_irrefl _)
            · rw [(Prod.mk.inj (List.mem_singleton.mp latest)).2]
              apply List.mem_append_left
              apply List.mem_append_right
              rw [first]
              exact List.mem_filterMap.mpr ⟨_, List.Mem.head rest, rfl⟩

/-! ## The invariant of a session -/

structure Consistent (session : Session) : Prop where
  settled : ∀ side, (session side).connection.Settled
  sound : ∀ side, (session side).connection.Sound
  counted : ∀ side, (session side).connection.CallbacksCounted
  known : session.AnswersKnown
  /-- A call under way is the latest of its number. -/
  latest :
    ∀ side sequence index, (sequence, index) ∈ session.engaged side →
      (session side).connection.LatestCall sequence index
  /-- A number that has been drawn is not used by a call under way. -/
  unused :
    ∀ side, ∀ sequence ∈ (session side).drawn, ∀ index,
      (sequence, index) ∉ session.engaged side
  nodup : ∀ side, (session side).drawn.Nodup

theorem consistent_start : start.Consistent where
  settled := fun _ => RpcConnection.settled_start
  sound := fun _ => RpcConnection.sound_start
  counted := fun _ => RpcConnection.callbacksCounted_start
  known := by
    intro side answer member
    cases member
  latest := by
    intro side sequence index member
    cases member
  unused := by
    intro side sequence member
    cases member
  nodup := fun _ => List.nodup_nil

theorem length_le_of_moved (moved : Moved session label next)
    (side : Side) :
    (session side).connection.messages.length ≤
      (next side).connection.messages.length := by
  rcases connection_of_moved moved side with same | ⟨rpcLabel, moves, -⟩
  · exact Nat.le_of_eq (congrArg (fun c => c.messages.length) same.symm)
  · rcases RpcConnection.messages_length_of_moved moves with
      sameLength | ⟨kind, sequence, timeout, -, appended⟩
    · exact Nat.le_of_eq sameLength.symm
    · rw [appended, List.length_append]
      exact Nat.le_add_right _ _

theorem answersKnown_of_moved (known : session.AnswersKnown)
    (moved : Moved session label next) : next.AnswersKnown := by
  intro side answer member
  have older :
      answer ∈ (session side).answers →
        answer.1 < (next side).connection.messages.length := by
    intro isOld
    exact Nat.lt_of_lt_of_le (known side answer isOld)
      (length_le_of_moved moved side)
  have same :
      (next side).answers = (session side).answers →
        answer.1 < (next side).connection.messages.length := by
    intro sameAnswers
    rw [sameAnswers] at member
    exact older member
  cases moved with
  | draw actor number =>
      exact same (field_update Endpoint.answers (by rfl) side)
  | discard actor position =>
      exact same (field_update Endpoint.answers (by rfl) side)
  | write actor index message packet found sending unwritten isPacket =>
      exact same (field_update Endpoint.answers (by rfl) side)
  | ignore actor kind sequence index rest first =>
      exact same (field_update Endpoint.answers (by rfl) side)
  | lose actor =>
      exact same (field_update Endpoint.answers (by rfl) side)
  | call actor position kind timeout sequence connection drawn own sent =>
      exact same (field_update Endpoint.answers (by rfl) side)
  | own actor rpcLabel connection allowed stepped =>
      exact same (field_update Endpoint.answers (by rfl) side)
  | takeReply actor answers sequence index rest connection first taken =>
      apply same
      rcases side.eq_or_eq_other actor with rfl | rfl
      · rw [Function.update_self]
      · rw [update_self_other, Function.update_self]
  | answer actor kind sequence index rest connection first expects sent =>
      rcases side.eq_or_eq_other actor with rfl | rfl
      · rw [Function.update_self] at member older ⊢
        rcases List.mem_append.mp member with isOld | isNew
        · exact older isOld
        · rw [List.mem_singleton.mp isNew]
          dsimp only
          rw [RpcConnection.messages_of_sent sent]
          simp
      · apply same
        rw [update_self_other, Function.update_self]

/-- The numbers drawn get fewer, but for a draw. -/
theorem drawn_of_moved (moved : Moved session label next) (side : Side) :
    List.Sublist (next side).drawn (session side).drawn ∨
      ∃ sequence, label = .draw side sequence ∧
        (next side).drawn = (session side).drawn ++ [sequence] := by
  have same :
      (next side).drawn = (session side).drawn →
        List.Sublist (next side).drawn (session side).drawn := by
    intro sameDrawn
    rw [sameDrawn]
  cases moved with
  | draw actor number =>
      rcases side.eq_or_eq_other actor with rfl | rfl
      · rw [Function.update_self]
        exact Or.inr ⟨number, rfl, rfl⟩
      · rw [update_self_other]
        exact Or.inl (List.Sublist.refl _)
  | discard actor position =>
      rcases side.eq_or_eq_other actor with rfl | rfl
      · rw [Function.update_self]
        exact Or.inl (List.eraseIdx_sublist _ _)
      · rw [update_self_other]
        exact Or.inl (List.Sublist.refl _)
  | call actor position kind timeout sequence connection drawn own sent =>
      rcases side.eq_or_eq_other actor with rfl | rfl
      · rw [Function.update_self]
        exact Or.inl (List.eraseIdx_sublist _ _)
      · rw [update_self_other]
        exact Or.inl (List.Sublist.refl _)
  | write actor index message packet found sending unwritten isPacket =>
      exact Or.inl (same (field_update Endpoint.drawn (by rfl) side))
  | ignore actor kind sequence index rest first =>
      exact Or.inl (same (field_update Endpoint.drawn (by rfl) side))
  | lose actor =>
      exact Or.inl (same (field_update Endpoint.drawn (by rfl) side))
  | own actor rpcLabel connection allowed stepped =>
      exact Or.inl (same (field_update Endpoint.drawn (by rfl) side))
  | takeReply actor answers sequence index rest connection first taken =>
      left
      apply same
      rcases side.eq_or_eq_other actor with rfl | rfl
      · rw [Function.update_self]
      · rw [update_self_other, Function.update_self]
  | answer actor kind sequence index rest connection first expects sent =>
      left
      apply same
      rcases side.eq_or_eq_other actor with rfl | rfl
      · rw [Function.update_self]
      · rw [update_self_other, Function.update_self]

/-- A number is erased from the numbers drawn when a call uses it. -/
theorem used_of_call (nodup : ∀ side, (session side).drawn.Nodup)
    {side : Side} {position : Nat} {kind : MessageKind} {timeout : Int}
    {sequence : Int32}
    (moved : Moved session (.call side position kind timeout) next)
    (drawn : (session side).drawn[position]? = some sequence) :
    sequence ∉ (next side).drawn := by
  cases moved with
  | call _ _ _ _ other connection present own sent =>
      rw [Function.update_self]
      intro member
      obtain ⟨bound, here⟩ := List.getElem?_eq_some_iff.mp drawn
      have split := List.getElem_cons_eraseIdx_perm bound
      rw [here] at split
      exact (List.nodup_cons.mp (split.nodup_iff.mpr (nodup side))).1 member

theorem Consistent.of_moved (consistent : session.Consistent)
    (fresh : session.Fresh label) (moved : Moved session label next) :
    next.Consistent where
  settled := by
    intro side
    rcases connection_of_moved moved side with same | ⟨_, moves, -⟩
    · rw [same]
      exact consistent.settled side
    · exact RpcConnection.settled_of_moved (consistent.settled side) moves
  sound := by
    intro side
    rcases connection_of_moved moved side with
      same | ⟨rpcLabel, moves, takes, -⟩
    · rw [same]
      exact consistent.sound side
    · refine
        (consistent.sound side).of_moved (consistent.settled side).entered
          ?_ moves
      cases rpcLabel with
      | takeReply sequence reply =>
          exact
            consistent.latest side sequence reply (takes sequence reply rfl)
      | _ => trivial
  counted := by
    intro side
    rcases connection_of_moved moved side with same | ⟨_, moves, -⟩
    · rw [same]
      exact consistent.counted side
    · exact
        RpcConnection.callbacksCounted_of_moved (consistent.counted side)
          moves
  known := answersKnown_of_moved consistent.known moved
  latest := by
    intro side sequence index member
    rcases engaged_of_moved consistent.known moved member with
      older | ⟨rfl, -, kind, timeout, -, -, own, sent⟩
    · have latest := consistent.latest side sequence index older
      rcases connection_of_moved moved side with
        same | ⟨rpcLabel, moves, -, sends⟩
      · rw [same]
        exact latest
      · refine latest.of_moved moves ?_
        intro kind timeout isSend
        by_contra own
        exact
          consistent.unused side sequence
            (sends kind sequence timeout isSend own) index older
    · exact
        RpcConnection.latestCall_new own
          (RpcConnection.messages_of_sent sent)
  unused := by
    intro side sequence isDrawn index member
    rcases engaged_of_moved consistent.known moved member with
      older | ⟨rfl, position, kind, timeout, rfl, drawn, -⟩
    · rcases drawn_of_moved moved side with fewer | ⟨number, rfl, more⟩
      · exact
          consistent.unused side sequence (fewer.subset isDrawn) index older
      · rw [more] at isDrawn
        rcases List.mem_append.mp isDrawn with earlier | latest
        · exact consistent.unused side sequence earlier index older
        · rw [List.mem_singleton.mp latest] at older
          exact fresh.2 (List.mem_map.mpr ⟨_, older, rfl⟩)
    · exact used_of_call consistent.nodup moved drawn isDrawn
  nodup := by
    intro side
    rcases drawn_of_moved moved side with fewer | ⟨number, rfl, more⟩
    · exact (consistent.nodup side).sublist fewer
    · rw [more]
      refine
        List.nodup_append.mpr
          ⟨consistent.nodup side, by simp, ?_⟩
      intro earlierNumber earlier other isNew sameNumber
      rw [sameNumber, List.mem_singleton.mp isNew] at earlier
      exact fresh.1 earlier

/-- What the invariant says about the replies. -/
theorem Consistent.replies (consistent : session.Consistent) (side : Side)
    {index : Nat} {message : RpcMessage}
    (found : (session side).connection.messages[index]? = some message)
    (own : message.kind ≠ .reply) :
    (message.result = none ∨ message.result = some index) ∧
      (message.callbacks = [] ∨ message.callbacks = [index]) := by
  obtain ⟨result, callbacks⟩ :=
    (consistent.sound side).answered index message found own
  refine ⟨?_, ?_⟩
  · cases isResult : message.result with
    | none => exact Or.inl rfl
    | some reply => exact Or.inr (congrArg some (result reply isResult))
  · have atMostOne : message.callbacks.length ≤ 1 :=
      Nat.le_trans ((consistent.counted side) index message found)
        (List.nodup_iff_count.mp
          (consistent.settled side).completedOnce.completedOnce index)
    match calls : message.callbacks with
    | [] => exact Or.inl rfl
    | [reply] =>
        right
        rw [callbacks reply (by rw [calls]; exact List.Mem.head [])]
    | _ :: _ :: _ =>
        rw [calls] at atMostOne
        simp at atMostOne

theorem consistent_of_run {labels : List SessionLabel} {final : Session}
    (execution : run step start labels = some final)
    (fresh : Along step Fresh start labels) : final.Consistent :=
  invariant_of_along
    (fun _ _ _ consistent fresh stepped =>
      consistent.of_moved fresh (moved_of_step stepped))
    consistent_start fresh execution

/-! ## Runs -/

/-- In every run of a session in which no number is drawn while a call of that
number is under way, an own call is completed by nothing but its own reply, and
at most once, whatever the order of the steps and whatever is lost. -/
theorem replies_reach_their_calls {labels : List SessionLabel}
    {final : Session} (execution : run step start labels = some final)
    (fresh : Along step Fresh start labels) (side : Side) :
    (final side).connection.CompletedOnce ∧
      ∀ (index : Nat) (message : RpcMessage),
        (final side).connection.messages[index]? = some message →
          message.kind ≠ .reply →
            (message.result = none ∨ message.result = some index) ∧
              (message.callbacks = [] ∨ message.callbacks = [index]) := by
  have consistent := consistent_of_run execution fresh
  exact
    ⟨(consistent.settled side).completedOnce,
      fun _ _ => consistent.replies side⟩

/-- Two calls of the left side that the right side answers in the reverse
order. -/
def answeredInReverse : List SessionLabel :=
  [.draw .left 1, .call .left 0 .twoWay 0, .draw .left 2,
    .call .left 0 .async 0, .write .left 0, .write .left 1,
    .own .left (.sent 0), .own .left (.wait 0), .receive .right true,
    .receive .right true, .write .right 1, .write .right 0,
    .receive .left true, .receive .left true, .own .left (.deliver 0),
    .own .left (.deliver 0)]

theorem replies_reach_their_calls_in_reverse :
    (∀ (index : Nat) (message : RpcMessage),
        (outcome step start answeredInReverse (by decide)
              .left).connection.messages[index]? = some message →
          message.kind ≠ .reply →
            (message.result = none ∨ message.result = some index) ∧
              (message.callbacks = [] ∨ message.callbacks = [index])) ∧
      (outcome step start answeredInReverse (by decide)
          .left).connection.messages.map
            (fun message => (message.result, message.callbacks)) =
        [(some 0, []), (none, [1])] :=
  ⟨(replies_reach_their_calls
      (run_eq_outcome start answeredInReverse (by decide)) (by decide)
      .left).2,
    by decide⟩

end Session

end LocationServer

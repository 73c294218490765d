import LocationServer.Rpc.Completion

/-!
# The own calls of a connection and their replies

A connection never changes the kind or the number of a message, and a number
in the table stands for the latest message that was sent under it.  So when
each reply that comes is that of the latest own call of its number, each own
call is completed by its own reply.
-/

namespace LocationServer

open StepSystem

/-- A later state of the same message; sending is over for good. -/
def RpcMessage.Kept (before after : RpcMessage) : Prop :=
  after.kind = before.kind ∧ after.sequence = before.sequence ∧
    (after.pc = .sending → before.pc = .sending)

theorem RpcMessage.Kept.refl (message : RpcMessage) :
    message.Kept message :=
  ⟨rfl, rfl, id⟩

theorem CallerPc.notified_eq_sending {pc : CallerPc} :
    pc.notified = .sending → pc = .sending := by
  cases pc <;> simp [CallerPc.notified]

theorem RpcMessage.kept_callReturn (message : RpcMessage) (reply : Nat) :
    message.Kept (message.callReturn reply) := by
  refine
    ⟨message.callReturn_kind reply, message.callReturn_sequence reply, ?_⟩
  rw [callReturn]
  split
  · exact id
  · exact CallerPc.notified_eq_sending

theorem RpcMessage.kept_lose (message : RpcMessage) :
    message.Kept message.lose :=
  ⟨rfl, rfl, CallerPc.notified_eq_sending⟩

namespace RpcConnection

variable {state next : RpcConnection} {label : RpcLabel}

/-! ## The messages of a later state -/

/-- The messages of the first state are there in the second one. -/
def KeepsMessages (state next : RpcConnection) : Prop :=
  ∀ (index : Nat) (before : RpcMessage),
    state.messages[index]? = some before →
      ∃ after, next.messages[index]? = some after ∧ before.Kept after

theorem KeepsMessages.of_set {index : Nat} {before after : RpcMessage}
    (found : state.messages[index]? = some before)
    (sameMessages : next.messages = state.messages.set index after)
    (kept : before.Kept after) :
    KeepsMessages state next := by
  intro other message foundOther
  rw [sameMessages, Threads.getElem?_set_present found]
  by_cases here : index = other
  · rw [here, foundOther] at found
    rw [← Option.some.inj found] at kept
    exact ⟨after, if_pos here, kept⟩
  · rw [if_neg here]
    exact ⟨message, foundOther, RpcMessage.Kept.refl message⟩

theorem KeepsMessages.of_same
    (sameMessages : next.messages = state.messages) :
    KeepsMessages state next := by
  intro index message found
  rw [sameMessages]
  exact ⟨message, found, RpcMessage.Kept.refl message⟩

theorem keepsMessages_of_moved (moved : Moved state label next) :
    KeepsMessages state next := by
  cases moved with
  | send kind sequence timeout unlocked =>
      intro index message found
      obtain ⟨bound, -⟩ := List.getElem?_eq_some_iff.mp found
      exact
        ⟨message, (List.getElem?_append_left bound).trans found,
          RpcMessage.Kept.refl message⟩
  | sent index message found sending =>
      exact KeepsMessages.of_set found rfl ⟨rfl, rfl, fun _ => sending⟩
  | failSend index message found unlocked =>
      refine KeepsMessages.of_set found rfl ⟨rfl, rfl, ?_⟩
      intro isSending
      cases isSending
  | unsolicited sequence reply unlocked absent =>
      exact KeepsMessages.of_same rfl
  | takeReply sequence reply index message unlocked entry found =>
      exact KeepsMessages.of_set found rfl ⟨rfl, rfl, id⟩
  | deliver position index reply message present found =>
      exact
        KeepsMessages.of_set found rfl (message.kept_callReturn reply)
  | beginDisconnect unlocked =>
      exact KeepsMessages.of_same rfl
  | fail index message found locked entry notYet =>
      exact KeepsMessages.of_set found rfl message.kept_lose
  | endDisconnect locked allFailed =>
      exact KeepsMessages.of_same rfl
  | wait index message found =>
      refine KeepsMessages.of_set found rfl ⟨rfl, rfl, ?_⟩
      intro isSending
      cases isSending
  | wake index message found =>
      refine KeepsMessages.of_set found rfl ⟨rfl, rfl, ?_⟩
      intro isSending
      cases isSending
  | inspect index message found =>
      refine KeepsMessages.of_set found rfl ⟨rfl, rfl, ?_⟩
      intro isSending
      cases isSending

theorem messages_of_sent {kind : MessageKind} {sequence : Int32}
    {timeout : Int}
    (sent : Moved state (.send kind sequence timeout) next) :
    next.messages =
      state.messages ++ [({ kind, sequence, timeout } : RpcMessage)] := by
  cases sent
  rfl

/-- Only a send adds a message, at the end. -/
theorem messages_length_of_moved (moved : Moved state label next) :
    next.messages.length = state.messages.length ∨
      ∃ kind sequence timeout, label = .send kind sequence timeout ∧
        next.messages =
          state.messages ++
            [({ kind, sequence, timeout } : RpcMessage)] := by
  cases moved with
  | send kind sequence timeout unlocked =>
      exact Or.inr ⟨kind, sequence, timeout, rfl, rfl⟩
  | unsolicited sequence reply unlocked absent => exact Or.inl rfl
  | beginDisconnect unlocked => exact Or.inl rfl
  | endDisconnect locked allFailed => exact Or.inl rfl
  | sent index message found sending => exact Or.inl List.length_set
  | failSend index message found unlocked => exact Or.inl List.length_set
  | takeReply sequence reply index message unlocked entry found =>
      exact Or.inl List.length_set
  | deliver position index reply message present found =>
      exact Or.inl List.length_set
  | fail index message found locked entry notYet =>
      exact Or.inl List.length_set
  | wait index message found => exact Or.inl List.length_set
  | wake index message found => exact Or.inl List.length_set
  | inspect index message found => exact Or.inl List.length_set

/-- A message is an earlier one in a later state, or the one that has just been
sent. -/
theorem before_of_moved (moved : Moved state label next) {index : Nat}
    {after : RpcMessage} (found : next.messages[index]? = some after) :
    (∃ before, state.messages[index]? = some before ∧ before.Kept after) ∨
      (index = state.messages.length ∧
        ∃ kind sequence timeout, label = .send kind sequence timeout ∧
          after = ({ kind, sequence, timeout } : RpcMessage)) := by
  have earlier :
      index < state.messages.length →
        ∃ before, state.messages[index]? = some before ∧
          before.Kept after := by
    intro bound
    have present := List.getElem?_eq_getElem bound
    obtain ⟨message, foundAfter, kept⟩ :=
      keepsMessages_of_moved moved index _ present
    rw [← Option.some.inj (foundAfter.symm.trans found)]
    exact ⟨_, present, kept⟩
  obtain ⟨bound, isAfter⟩ := List.getElem?_eq_some_iff.mp found
  rcases messages_length_of_moved moved with
    sameLength | ⟨kind, sequence, timeout, isSend, appended⟩
  · exact Or.inl (earlier (by omega))
  · have longer : next.messages.length = state.messages.length + 1 := by
      rw [appended, List.length_append, List.length_singleton]
    rcases Nat.lt_or_ge index state.messages.length with older | newest
    · exact Or.inl (earlier older)
    · refine
        Or.inr ⟨by omega, kind, sequence, timeout, isSend, ?_⟩
      have atEnd : index = state.messages.length := by omega
      rw [appended, atEnd, List.getElem?_concat_length] at found
      exact (Option.some.inj found).symm

/-! ## The latest call of a number -/

/-- The own call at `index` has the number, and no later one has it. -/
def LatestCall (state : RpcConnection) (sequence : Int32)
    (index : Nat) : Prop :=
  (∃ message, state.messages[index]? = some message ∧
      message.kind ≠ .reply ∧ message.sequence = sequence) ∧
    ∀ later message, index < later →
      state.messages[later]? = some message →
        message.sequence = sequence → message.kind = .reply

theorem LatestCall.unique {sequence : Int32} {index other : Nat}
    (latest : state.LatestCall sequence index)
    (otherLatest : state.LatestCall sequence other) : index = other := by
  obtain ⟨⟨message, found, own, isSequence⟩, noLater⟩ := latest
  obtain ⟨⟨message', found', own', isSequence'⟩, noLater'⟩ := otherLatest
  rcases Nat.lt_trichotomy index other with before | same | behind
  · exact absurd (noLater other message' before found' isSequence') own'
  · exact same
  · exact absurd (noLater' index message behind found isSequence) own

/-- The latest call stays the latest until its number is used again. -/
theorem LatestCall.of_moved {sequence : Int32} {index : Nat}
    (latest : state.LatestCall sequence index)
    (moved : Moved state label next)
    (unused :
      ∀ kind timeout, label = .send kind sequence timeout →
        kind = .reply) :
    next.LatestCall sequence index := by
  obtain ⟨⟨message, found, own, isSequence⟩, noLater⟩ := latest
  obtain ⟨after, foundAfter, sameKind, sameSequence, -⟩ :=
    keepsMessages_of_moved moved index message found
  refine ⟨⟨after, foundAfter, ?_, sameSequence.trans isSequence⟩, ?_⟩
  · rw [sameKind]
    exact own
  · intro later message' behind found' isSequence'
    rcases before_of_moved moved found' with
      ⟨before, foundBefore, sameKind', sameSequence', -⟩ |
        ⟨-, kind, sent, timeout, isSend, isNew⟩
    · rw [sameKind']
      exact
        noLater later before behind foundBefore
          (sameSequence'.symm.trans isSequence')
    · rw [isNew] at isSequence' ⊢
      rw [← isSequence'] at unused
      exact unused kind timeout isSend

/-- A call that has just been sent is the latest of its number. -/
theorem latestCall_new {kind : MessageKind} {sequence : Int32}
    {timeout : Int} (own : kind ≠ .reply)
    (appended :
      next.messages =
        state.messages ++ [({ kind, sequence, timeout } : RpcMessage)]) :
    next.LatestCall sequence state.messages.length := by
  refine ⟨⟨{ kind, sequence, timeout }, ?_, own, rfl⟩, ?_⟩
  · rw [appended, List.getElem?_concat_length]
  · intro later message behind found
    rw [appended, List.getElem?_eq_none (by simp; omega)] at found
    cases found

/-! ## Replies that find their calls -/

/-- What an own call has been completed with is its own reply. -/
def AnsweredBy (message : RpcMessage) (index : Nat) : Prop :=
  message.kind ≠ .reply →
    (∀ reply, message.result = some reply → reply = index) ∧
      ∀ reply ∈ message.callbacks, reply = index

theorem answeredBy_callReturn {message : RpcMessage} {index reply : Nat}
    (answered : AnsweredBy message index)
    (isOwn : message.kind ≠ .reply → reply = index) :
    AnsweredBy (message.callReturn reply) index := by
  intro own
  rw [message.callReturn_kind reply] at own
  obtain ⟨result, callbacks⟩ := answered own
  have same := isOwn own
  rw [RpcMessage.callReturn]
  split
  · refine ⟨result, ?_⟩
    intro other member
    rcases List.mem_append.mp member with earlier | latest
    · exact callbacks other earlier
    · rw [List.mem_singleton.mp latest]
      exact same
  · refine ⟨?_, callbacks⟩
    intro other isResult
    rw [← Option.some.inj isResult]
    exact same

/-- The entries of the table are the latest calls of their numbers, and every
reply that an own call has, or will get, is its own. -/
structure Sound (state : RpcConnection) : Prop where
  entries :
    ∀ sequence index (message : RpcMessage),
      state.msglist sequence = some index →
        state.messages[index]? = some message → message.kind ≠ .reply →
          state.LatestCall sequence index
  delivering :
    ∀ index reply, (index, reply) ∈ state.delivering →
      ∃ message, state.messages[index]? = some message ∧
        (message.kind ≠ .reply → reply = index)
  answered :
    ∀ (index : Nat) (message : RpcMessage),
      state.messages[index]? = some message → AnsweredBy message index

/-- A reply is that of the latest own call of its number. -/
def Expected (state : RpcConnection) : RpcLabel → Prop
  | .takeReply sequence reply => state.LatestCall sequence reply
  | _ => True

theorem sound_start : ({} : RpcConnection).Sound := by
  refine ⟨?_, ?_, ?_⟩
  · intro sequence index message entry
    cases entry
  · intro index reply member
    cases member
  · intro index message found
    cases found

/-- The entries that a step leaves are the latest calls of their numbers. -/
theorem Sound.entries_of_moved (sound : state.Sound)
    (entered : state.Entered) (moved : Moved state label next)
    {sequence : Int32} {index : Nat} {message : RpcMessage}
    (entry : next.msglist sequence = some index)
    (found : next.messages[index]? = some message)
    (own : message.kind ≠ .reply) : next.LatestCall sequence index := by
  have older :
      state.msglist sequence = some index →
        index < state.messages.length →
          (∀ kind timeout, label = .send kind sequence timeout →
            kind = .reply) →
            next.LatestCall sequence index := by
    intro oldEntry bound unused
    have present := List.getElem?_eq_getElem bound
    obtain ⟨after, foundAfter, sameKind, -⟩ :=
      keepsMessages_of_moved moved index _ present
    rw [Option.some.inj (found.symm.trans foundAfter), sameKind] at own
    exact
      (sound.entries sequence index _ oldEntry present own).of_moved moved
        unused
  obtain ⟨bound, -⟩ := List.getElem?_eq_some_iff.mp found
  cases moved with
  | send kind number timeout unlocked =>
      dsimp only at entry found
      by_cases here : sequence = number
      · rw [here, Function.update_self] at entry
        obtain rfl := Option.some.inj entry
        rw [List.getElem?_concat_length] at found
        rw [← Option.some.inj found] at own
        rw [here]
        exact latestCall_new own rfl
      · rw [Function.update_of_ne here] at entry
        obtain ⟨before, present, -⟩ := entered sequence index entry
        obtain ⟨known, -⟩ := List.getElem?_eq_some_iff.mp present
        refine older entry known ?_
        intro other limit isSend
        cases isSend
        exact absurd rfl here
  | sent other before present sending =>
      exact older entry (by simpa using bound) (by simp)
  | failSend other before present unlocked =>
      exact
        older (update_none_eq_some entry).2 (by simpa using bound)
          (by simp)
  | unsolicited number reply unlocked absent =>
      exact older entry bound (by simp)
  | takeReply number reply other before unlocked entered present =>
      exact
        older (update_none_eq_some entry).2 (by simpa using bound)
          (by simp)
  | deliver position other reply before present foundBefore =>
      exact older entry (by simpa using bound) (by simp)
  | beginDisconnect unlocked => exact older entry bound (by simp)
  | fail other before present locked entered notYet =>
      exact older entry (by simpa using bound) (by simp)
  | endDisconnect locked allFailed => cases entry
  | wait other before present =>
      exact older entry (by simpa using bound) (by simp)
  | wake other before present =>
      exact older entry (by simpa using bound) (by simp)
  | inspect other before present =>
      exact older entry (by simpa using bound) (by simp)

theorem Sound.delivering_of_moved (sound : state.Sound)
    (expected : state.Expected label) (moved : Moved state label next)
    {index reply : Nat} (waits : (index, reply) ∈ next.delivering) :
    ∃ message, next.messages[index]? = some message ∧
      (message.kind ≠ .reply → reply = index) := by
  have older :
      (index, reply) ∈ state.delivering →
        ∃ message, next.messages[index]? = some message ∧
          (message.kind ≠ .reply → reply = index) := by
    intro member
    obtain ⟨before, found, isOwn⟩ := sound.delivering index reply member
    obtain ⟨after, foundAfter, sameKind, -⟩ :=
      keepsMessages_of_moved moved index before found
    refine ⟨after, foundAfter, ?_⟩
    rw [sameKind]
    exact isOwn
  cases moved with
  | takeReply sequence taken other message unlocked entry found =>
      rcases List.mem_append.mp waits with earlier | latest
      · exact older earlier
      · obtain ⟨rfl, rfl⟩ := Prod.mk.inj (List.mem_singleton.mp latest)
        refine ⟨_, Threads.getElem?_set_moved found _, ?_⟩
        intro own
        exact
          LatestCall.unique expected
            (sound.entries sequence index message entry found own)
  | deliver position other taken message present found =>
      exact older (List.mem_of_mem_eraseIdx waits)
  | send kind sequence timeout unlocked => exact older waits
  | sent other message found sending => exact older waits
  | failSend other message found unlocked => exact older waits
  | unsolicited sequence taken unlocked absent => exact older waits
  | beginDisconnect unlocked => exact older waits
  | fail other message found locked entry notYet => exact older waits
  | endDisconnect locked allFailed => exact older waits
  | wait other message found => exact older waits
  | wake other message found => exact older waits
  | inspect other message found => exact older waits

/-- A message changes, and stays completed by its own reply alone. -/
theorem Sound.answered_set (sound : state.Sound) {index : Nat}
    {before after : RpcMessage}
    (found : state.messages[index]? = some before)
    (sameMessages : next.messages = state.messages.set index after)
    (keeps : AnsweredBy before index → AnsweredBy after index)
    {other : Nat} {message : RpcMessage}
    (foundNext : next.messages[other]? = some message) :
    AnsweredBy message other := by
  rw [sameMessages] at foundNext
  rcases Threads.getElem?_set_cases foundNext with
    ⟨here, isAfter⟩ | ⟨-, unmoved⟩
  · rw [isAfter, ← here]
    exact keeps (sound.answered index before found)
  · exact sound.answered other message unmoved

theorem Sound.answered_set_of_same (sound : state.Sound) {index : Nat}
    {before after : RpcMessage}
    {other : Nat} {message : RpcMessage}
    (found : state.messages[index]? = some before)
    (foundNext : next.messages[other]? = some message)
    (sameMessages : next.messages = state.messages.set index after)
    (sameKind : after.kind = before.kind)
    (sameResult : after.result = before.result)
    (sameCallbacks : after.callbacks = before.callbacks) :
    AnsweredBy message other := by
  refine sound.answered_set found sameMessages ?_ foundNext
  intro answered
  rw [AnsweredBy, sameKind, sameResult, sameCallbacks]
  exact answered

theorem Sound.answered_of_moved (sound : state.Sound)
    (moved : Moved state label next) {index : Nat} {message : RpcMessage}
    (foundNext : next.messages[index]? = some message) :
    AnsweredBy message index := by
  cases moved with
  | send kind sequence timeout unlocked =>
      rcases Nat.lt_or_ge index state.messages.length with known | newest
      · dsimp only at foundNext
        rw [List.getElem?_append_left known] at foundNext
        exact sound.answered index message foundNext
      · have isNew :
            message ∈ [({ kind, sequence, timeout } : RpcMessage)] := by
          dsimp only at foundNext
          rw [List.getElem?_append_right newest] at foundNext
          exact List.mem_of_getElem? foundNext
        rw [List.mem_singleton.mp isNew]
        intro own
        exact ⟨by simp, by simp⟩
  | deliver position other reply before present found =>
      refine sound.answered_set found rfl ?_ foundNext
      intro answered
      obtain ⟨same, foundSame, isOwn⟩ :=
        sound.delivering other reply (List.mem_of_getElem? present)
      obtain rfl := Option.some.inj (found.symm.trans foundSame)
      exact answeredBy_callReturn answered isOwn
  | unsolicited sequence reply unlocked absent =>
      exact sound.answered index message foundNext
  | beginDisconnect unlocked =>
      exact sound.answered index message foundNext
  | endDisconnect locked allFailed =>
      exact sound.answered index message foundNext
  | sent other before found sending =>
      exact sound.answered_set_of_same found foundNext rfl rfl rfl rfl
  | failSend other before found unlocked =>
      exact sound.answered_set_of_same found foundNext rfl rfl rfl rfl
  | takeReply sequence reply other before unlocked entry found =>
      exact sound.answered_set_of_same found foundNext rfl rfl rfl rfl
  | fail other before found locked entry notYet =>
      exact sound.answered_set_of_same found foundNext rfl rfl rfl rfl
  | wait other before found =>
      exact sound.answered_set_of_same found foundNext rfl rfl rfl rfl
  | wake other before found =>
      exact sound.answered_set_of_same found foundNext rfl rfl rfl rfl
  | inspect other before found =>
      exact sound.answered_set_of_same found foundNext rfl rfl rfl rfl

theorem Sound.of_moved (sound : state.Sound) (entered : state.Entered)
    (expected : state.Expected label) (moved : Moved state label next) :
    next.Sound where
  entries := fun _ _ _ => sound.entries_of_moved entered moved
  delivering := fun _ _ => sound.delivering_of_moved expected moved
  answered := fun _ _ => sound.answered_of_moved moved

/-! ## Callbacks are completions -/

/-- Each callback of a message is one of its completions. -/
def CallbacksCounted (state : RpcConnection) : Prop :=
  ∀ (index : Nat) (message : RpcMessage),
    state.messages[index]? = some message →
      message.callbacks.length ≤ state.completed.count index

theorem callbacksCounted_start : ({} : RpcConnection).CallbacksCounted := by
  intro index message found
  cases found

theorem callbacksCounted_set (counted : state.CallbacksCounted)
    {index : Nat} {before after : RpcMessage}
    (found : state.messages[index]? = some before)
    (sameMessages : next.messages = state.messages.set index after)
    (completed :
      ∃ more, next.completed = state.completed ++ more ∧
        after.callbacks.length ≤
          before.callbacks.length + more.count index) :
    next.CallbacksCounted := by
  obtain ⟨more, isCompleted, fits⟩ := completed
  intro other message foundNext
  rw [isCompleted, List.count_append]
  rw [sameMessages] at foundNext
  rcases Threads.getElem?_set_cases foundNext with
    ⟨here, isAfter⟩ | ⟨-, unmoved⟩
  · have known := counted index before found
    rw [isAfter, ← here]
    omega
  · have known := counted other message unmoved
    omega

theorem callbacksCounted_of_moved (counted : state.CallbacksCounted)
    (moved : Moved state label next) : next.CallbacksCounted := by
  cases moved with
  | send kind sequence timeout unlocked =>
      intro index message found
      rcases Nat.lt_or_ge index state.messages.length with known | newest
      · dsimp only at found
        rw [List.getElem?_append_left known] at found
        exact counted index message found
      · dsimp only at found
        rw [List.getElem?_append_right newest] at found
        rw [List.mem_singleton.mp (List.mem_of_getElem? found)]
        exact Nat.zero_le _
  | deliver position index reply message present found =>
      refine
        callbacksCounted_set counted found rfl ⟨[index], rfl, ?_⟩
      rw [List.count_singleton_self, RpcMessage.callReturn]
      split
      · simp
      · exact Nat.le_succ _
  | fail index message found locked entry notYet =>
      exact
        callbacksCounted_set counted found rfl
          ⟨[index], rfl, Nat.le_add_right _ _⟩
  | unsolicited sequence reply unlocked absent => exact counted
  | beginDisconnect unlocked => exact counted
  | endDisconnect locked allFailed => exact counted
  | sent index message found sending =>
      exact
        callbacksCounted_set counted found rfl
          ⟨[], (List.append_nil _).symm, Nat.le_refl _⟩
  | failSend index message found unlocked =>
      exact
        callbacksCounted_set counted found rfl
          ⟨[], (List.append_nil _).symm, Nat.le_refl _⟩
  | takeReply sequence reply index message unlocked entry found =>
      exact
        callbacksCounted_set counted found rfl
          ⟨[], (List.append_nil _).symm, Nat.le_refl _⟩
  | wait index message found =>
      exact
        callbacksCounted_set counted found rfl
          ⟨[], (List.append_nil _).symm, Nat.le_refl _⟩
  | wake index message found =>
      exact
        callbacksCounted_set counted found rfl
          ⟨[], (List.append_nil _).symm, Nat.le_refl _⟩
  | inspect index message found =>
      exact
        callbacksCounted_set counted found rfl
          ⟨[], (List.append_nil _).symm, Nat.le_refl _⟩

end RpcConnection

end LocationServer

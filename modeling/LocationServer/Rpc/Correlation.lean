import LocationServer.Rpc.Connection

/-!
# Calls and replies on one connection

`sendMessage` registers every message it sends, `RETURN` messages and one-way
calls among them, under one key space; an entry leaves the table with a reply
of its number, a failed send of its number or a lost connection.  The table
holds exactly the calls that await a reply as long as nothing else is sent, no
number is used twice at a time and no caller gives up.
-/

namespace LocationServer

open StepSystem

namespace RpcConnection

/-- The message is registered under the number, and a running `onDisconnected`
has not failed it yet. -/
def Holds (state : RpcConnection) (sequence : Int32) (index : Nat) : Prop :=
  state.msglist sequence = some index ∧
    ∀ message ∈ state.messages[index]?, message.registration ≠ .lost

/-- The message is an own call of that number that awaits its reply. -/
def AwaitedBy (state : RpcConnection) (sequence : Int32)
    (index : Nat) : Prop :=
  ∃ message, state.messages[index]? = some message ∧
    message.sequence = sequence ∧ message.Awaits

structure Correlated (state : RpcConnection) : Prop where
  /-- The table maps exactly the numbers of the calls that await a reply to
  these calls. -/
  exact :
    ∀ sequence index,
      state.Holds sequence index ↔ state.AwaitedBy sequence index
  /-- A reply is matched with the call that awaits it. -/
  completes :
    ∀ sequence index reply,
      state.AwaitedBy sequence index → state.disconnecting = false →
        ∃ next, state.step (.takeReply sequence reply) = some next ∧
          (index, reply) ∈ next.delivering

/-- Only calls that expect a reply are sent, under a number that no call
awaits; a failed send removes no entry but its own; no caller leaves a call
that still awaits its reply. -/
def Unambiguous (state : RpcConnection) : RpcLabel → Prop
  | .send kind sequence _ =>
      kind.expectsReply = true ∧
        ∀ message ∈ state.messages,
          message.sequence = sequence → ¬ message.Awaits
  | .failSend index =>
      ∀ message ∈ state.messages[index]?,
        ∀ other ∈ state.msglist message.sequence, other = index
  | .inspect index =>
      ∀ message ∈ state.messages[index]?, ¬ message.Awaits
  | _ => True

instance (state : RpcConnection) : DecidablePred state.Unambiguous
  | .send _ _ _ => inferInstanceAs (Decidable (_ ∧ ∀ message ∈ _, _))
  | .sent _ => inferInstanceAs (Decidable True)
  | .failSend _ =>
      inferInstanceAs (Decidable (∀ message ∈ _, ∀ other ∈ _, _))
  | .takeReply _ _ => inferInstanceAs (Decidable True)
  | .deliver _ => inferInstanceAs (Decidable True)
  | .beginDisconnect => inferInstanceAs (Decidable True)
  | .fail _ => inferInstanceAs (Decidable True)
  | .endDisconnect => inferInstanceAs (Decidable True)
  | .wait _ => inferInstanceAs (Decidable True)
  | .wake _ => inferInstanceAs (Decidable True)
  | .inspect _ => inferInstanceAs (Decidable (∀ message ∈ _, _))

/-! ## What a step does to the table -/

section Step

variable {state next : RpcConnection} {label : RpcLabel}

theorem awaitedBy_set {index : Nat} {before after : RpcMessage}
    (found : state.messages[index]? = some before)
    (sameMessages : next.messages = state.messages.set index after)
    (sequence : Int32) (other : Nat) :
    next.AwaitedBy sequence other ↔
      if index = other then after.sequence = sequence ∧ after.Awaits
      else state.AwaitedBy sequence other := by
  rw [AwaitedBy, sameMessages, Threads.getElem?_set_present found]
  by_cases here : index = other
  · rw [if_pos here, if_pos here]
    simp
  · rw [if_neg here, if_neg here, AwaitedBy]

theorem holds_set {index : Nat} {before after : RpcMessage}
    (found : state.messages[index]? = some before)
    (sameMessages : next.messages = state.messages.set index after)
    (sameTable : next.msglist = state.msglist)
    (sequence : Int32) (other : Nat) :
    next.Holds sequence other ↔
      if index = other then
        state.msglist sequence = some other ∧ after.registration ≠ .lost
      else state.Holds sequence other := by
  rw [Holds, sameMessages, sameTable,
    Threads.getElem?_set_present found]
  by_cases here : index = other
  · rw [if_pos here, if_pos here]
    simp
  · rw [if_neg here, if_neg here, Holds]

theorem awaitedBy_iff_of_found {index : Nat} {message : RpcMessage}
    (found : state.messages[index]? = some message) (sequence : Int32) :
    state.AwaitedBy sequence index ↔
      message.sequence = sequence ∧ message.Awaits := by
  simp [AwaitedBy, found]

theorem holds_iff_of_found {index : Nat} {message : RpcMessage}
    (found : state.messages[index]? = some message) (sequence : Int32) :
    state.Holds sequence index ↔
      state.msglist sequence = some index ∧
        message.registration ≠ .lost := by
  simp [Holds, found]

/-- A message that stops waiting for a reply is awaited no more. -/
theorem awaitedBy_leave {index : Nat} {before after : RpcMessage}
    (found : state.messages[index]? = some before)
    (sameMessages : next.messages = state.messages.set index after)
    (left : after.registration ≠ .pending)
    (sequence : Int32) (other : Nat) :
    next.AwaitedBy sequence other ↔
      index ≠ other ∧ state.AwaitedBy sequence other := by
  rw [awaitedBy_set found sameMessages]
  by_cases here : index = other
  · rw [if_pos here]
    exact iff_of_false (fun awaits => left awaits.2.2) fun apart => apart.1 here
  · rw [if_neg here]
    exact (and_iff_right here).symm

/-- A number leaves the table. -/
theorem holds_drop (entered : state.Entered) {index : Nat}
    {before after : RpcMessage}
    (found : state.messages[index]? = some before)
    (sameMessages : next.messages = state.messages.set index after)
    (dropped :
      next.msglist = Function.update state.msglist before.sequence none)
    (sequence : Int32) (other : Nat) :
    next.Holds sequence other ↔
      sequence ≠ before.sequence ∧ state.Holds sequence other := by
  rw [Holds, Holds, sameMessages, dropped,
    Threads.getElem?_set_present found]
  by_cases isDropped : sequence = before.sequence
  · rw [isDropped, Function.update_self]
    simp
  · rw [Function.update_of_ne isDropped]
    by_cases here : index = other
    · -- an entry of the message would have its number
      have noEntry : state.msglist sequence ≠ some other := by
        intro entry
        rw [here] at found
        exact isDropped (entered.sequence_eq entry found).symm
      exact
        iff_of_false (fun holds => noEntry holds.1)
          fun holds => noEntry holds.2.1
    · rw [if_neg here]
      exact (and_iff_right isDropped).symm

/-- The table maps exactly the numbers of the calls that await a reply. -/
def Exact (state : RpcConnection) : Prop :=
  ∀ sequence index,
    state.Holds sequence index ↔ state.AwaitedBy sequence index

theorem correlated_iff_exact : state.Correlated ↔ state.Exact := by
  refine ⟨fun correlated => correlated.exact, ?_⟩
  intro exact
  refine ⟨exact, ?_⟩
  intro sequence index reply awaited unlocked
  have entry := ((exact sequence index).mpr awaited).1
  obtain ⟨message, found, -⟩ := awaited
  refine
    ⟨{ state with
        messages :=
          state.messages.set index { message with registration := .matched }
        msglist := Function.update state.msglist sequence none
        delivering := state.delivering ++ [(index, reply)]
        removed := state.removed ++ [index] }, ?_, ?_⟩
  · simp [step, unlocked, entry, found]
  · simp

theorem exact_of_same (exact : state.Exact) {index : Nat}
    {before after : RpcMessage}
    (found : state.messages[index]? = some before)
    (sameMessages : next.messages = state.messages.set index after)
    (sameTable : next.msglist = state.msglist)
    (sameSequence : after.sequence = before.sequence)
    (sameKind : after.kind = before.kind)
    (sameRegistration : after.registration = before.registration) :
    next.Exact := by
  intro sequence other
  have exactHere := exact sequence other
  rw [awaitedBy_set found sameMessages,
    holds_set found sameMessages sameTable]
  by_cases here : index = other
  · rw [here] at found
    rw [holds_iff_of_found found, awaitedBy_iff_of_found found,
      RpcMessage.Awaits] at exactHere
    rw [if_pos here, if_pos here, RpcMessage.Awaits, sameSequence,
      sameKind, sameRegistration]
    exact exactHere
  · rw [if_neg here, if_neg here]
    exact exactHere

/-- A message leaves the table under its number: exactly the call that it
was registered for must be gone. -/
theorem exact_drop_iff (entered : state.Entered) (exact : state.Exact)
    (unlocked : state.disconnecting = false)
    {index : Nat} {before after : RpcMessage}
    (found : state.messages[index]? = some before)
    (sameMessages : next.messages = state.messages.set index after)
    (dropped :
      next.msglist = Function.update state.msglist before.sequence none)
    (left : after.registration ≠ .pending) :
    next.Exact ↔
      ∀ other ∈ state.msglist before.sequence, other = index := by
  have awaited := awaitedBy_leave found sameMessages left
  have holds := holds_drop entered found sameMessages dropped
  constructor
  · intro exactNext other entry
    by_contra different
    have held : state.Holds before.sequence other := by
      refine ⟨entry, ?_⟩
      intro message foundOther
      obtain ⟨same, isSame, -, -, unlost⟩ := entered _ _ entry
      rw [← Option.some.inj (isSame.symm.trans foundOther)]
      exact unlost unlocked
    have stillAwaited :=
      (awaited before.sequence other).mpr
        ⟨Ne.symm different, (exact _ _).mp held⟩
    have stillHeld := (exactNext _ _).mpr stillAwaited
    exact ((holds _ _).mp stillHeld).1 rfl
  · intro own sequence other
    rw [holds, awaited]
    constructor
    · intro held
      have wasAwaited := (exact sequence other).mp held.2
      refine ⟨?_, wasAwaited⟩
      intro here
      rw [← here, awaitedBy_iff_of_found found] at wasAwaited
      exact held.1 wasAwaited.1.symm
    · intro kept
      have held := (exact sequence other).mpr kept.2
      refine ⟨?_, held⟩
      intro isDropped
      have entry := held.1
      rw [isDropped] at entry
      exact kept.1 (own other entry).symm

/-- Sending registers the message, whatever it is, under its number, and
hides what was registered there. -/
theorem exact_send_iff (entered : state.Entered) (exact : state.Exact)
    {new : RpcMessage}
    (pending : new.registration = .pending)
    (sameMessages : next.messages = state.messages ++ [new])
    (sameTable :
      next.msglist =
        Function.update state.msglist new.sequence
          (some state.messages.length)) :
    next.Exact ↔
      new.kind.expectsReply = true ∧
        ∀ message ∈ state.messages,
          message.sequence = new.sequence → ¬ message.Awaits := by
  have foundNew : next.messages[state.messages.length]? = some new := by
    rw [sameMessages]
    simp
  have foundOld :
      ∀ (index : Nat) message, state.messages[index]? = some message →
        next.messages[index]? = some message := by
    intro index message found
    obtain ⟨bound, -⟩ := List.getElem?_eq_some_iff.mp found
    rw [sameMessages, List.getElem?_append_left bound]
    exact found
  have newAwaited :
      ∀ sequence,
        next.AwaitedBy sequence state.messages.length ↔
          new.sequence = sequence ∧ new.kind.expectsReply = true := by
    intro sequence
    rw [awaitedBy_iff_of_found foundNew, RpcMessage.Awaits, pending]
    simp
  constructor
  · intro exactNext
    have held : next.Holds new.sequence state.messages.length := by
      rw [holds_iff_of_found foundNew, sameTable, Function.update_self,
        pending]
      exact ⟨rfl, Registration.noConfusion⟩
    refine
      ⟨((newAwaited _).mp ((exactNext _ _).mp held)).2, ?_⟩
    intro message member isSequence awaits
    obtain ⟨index, bound, isMessage⟩ := List.mem_iff_getElem.mp member
    have found : state.messages[index]? = some message := by
      rw [List.getElem?_eq_getElem bound, isMessage]
    have stillAwaited : next.AwaitedBy new.sequence index :=
      ⟨message, foundOld index message found, isSequence, awaits⟩
    have stillHeld := ((exactNext _ _).mpr stillAwaited).1
    rw [sameTable, Function.update_self] at stillHeld
    have isNew := Option.some.inj stillHeld
    omega
  · intro conditions sequence index
    obtain ⟨expects, unused⟩ := conditions
    by_cases here : index = state.messages.length
    · rw [here, newAwaited, holds_iff_of_found foundNew, sameTable,
        pending]
      by_cases isNew : sequence = new.sequence
      · rw [isNew, Function.update_self]
        exact
          iff_of_true ⟨rfl, Registration.noConfusion⟩ ⟨rfl, expects⟩
      · rw [Function.update_of_ne isNew]
        refine iff_of_false ?_ fun awaited => isNew awaited.1.symm
        intro held
        obtain ⟨message, found, -⟩ := entered _ _ held.1
        simp at found
    · have sameElsewhere :
          next.messages[index]? = state.messages[index]? := by
        rw [sameMessages]
        rcases Nat.lt_or_gt_of_ne here with older | beyond
        · exact List.getElem?_append_left older
        · rw [List.getElem?_eq_none (by simp; omega),
            List.getElem?_eq_none (by omega)]
      rw [Holds, AwaitedBy, sameElsewhere, sameTable]
      by_cases isNew : sequence = new.sequence
      · rw [isNew, Function.update_self]
        refine
          iff_of_false
            (fun held => here (Option.some.inj held.1).symm) ?_
        intro awaited
        obtain ⟨message, found, isSequence, awaits⟩ := awaited
        exact
          unused message (List.mem_of_getElem? found) isSequence awaits
      · rw [Function.update_of_ne isNew]
        exact exact sequence index

/-- A caller leaves its message without a change of the table. -/
theorem exact_leave_iff (exact : state.Exact) {index : Nat}
    {before after : RpcMessage}
    (found : state.messages[index]? = some before)
    (sameMessages : next.messages = state.messages.set index after)
    (sameTable : next.msglist = state.msglist)
    (left : after.registration ≠ .pending)
    (sameLost :
      after.registration ≠ .lost ↔ before.registration ≠ .lost) :
    next.Exact ↔ ¬ before.Awaits := by
  have awaited := awaitedBy_leave found sameMessages left
  have holds :
      ∀ sequence other,
        next.Holds sequence other ↔ state.Holds sequence other := by
    intro sequence other
    rw [holds_set found sameMessages sameTable]
    by_cases here : index = other
    · rw [here] at found
      rw [if_pos here, holds_iff_of_found found, sameLost]
    · rw [if_neg here]
  constructor
  · intro exactNext awaits
    have wasAwaited : state.AwaitedBy before.sequence index :=
      ⟨before, found, rfl, awaits⟩
    have stillHeld :=
      (holds _ _).mpr ((exact before.sequence index).mpr wasAwaited)
    exact ((awaited _ _).mp ((exactNext _ _).mp stillHeld)).1 rfl
  · intro notAwaited sequence other
    rw [holds, awaited, exact]
    refine ⟨fun wasAwaited => ⟨?_, wasAwaited⟩, And.right⟩
    intro here
    rw [← here, awaitedBy_iff_of_found found] at wasAwaited
    exact notAwaited wasAwaited.2

/-- A call that a disconnect fails is awaited no more, and its entry counts no
more. -/
theorem exact_lose (exact : state.Exact) {index : Nat}
    {before after : RpcMessage}
    (found : state.messages[index]? = some before)
    (sameMessages : next.messages = state.messages.set index after)
    (sameTable : next.msglist = state.msglist)
    (isLost : after.registration = .lost) : next.Exact := by
  intro sequence other
  have left : after.registration ≠ .pending := by
    rw [isLost]
    exact Registration.noConfusion
  rw [awaitedBy_leave found sameMessages left,
    holds_set found sameMessages sameTable]
  by_cases here : index = other
  · rw [if_pos here]
    exact
      iff_of_false (fun holds => holds.2 isLost) fun apart => apart.1 here
  · rw [if_neg here]
    exact (exact sequence other).trans (and_iff_right here).symm

theorem exact_iff_of_moved (entered : state.Entered)
    (exact : state.Exact) (moved : Moved state label next) :
    next.Exact ↔ state.Unambiguous label := by
  cases moved with
  | send kind sequence timeout unlocked =>
      exact
        @exact_send_iff state _ entered exact
          { kind, sequence, timeout } rfl rfl rfl
  | sent index message found sending =>
      exact
        iff_of_true (exact_of_same exact found rfl rfl rfl rfl rfl) trivial
  | failSend index message found unlocked =>
      refine
        (exact_drop_iff entered exact unlocked found rfl rfl
          (Registration.leave_ne_pending (by decide) _)).trans ?_
      simp [Unambiguous, found]
  | unsolicited sequence reply unlocked absent =>
      exact iff_of_true exact trivial
  | takeReply sequence reply index message unlocked entry found =>
      have isSequence := entered.sequence_eq entry found
      refine
        (exact_drop_iff entered exact unlocked found rfl (by rw [isSequence])
          Registration.noConfusion).trans ?_
      refine iff_of_true ?_ trivial
      intro other otherEntry
      rw [isSequence, entry] at otherEntry
      exact (Option.some.inj otherEntry).symm
  | deliver position index reply message present found =>
      exact
        iff_of_true
          (exact_of_same exact found rfl rfl
            (message.callReturn_sequence reply)
            (message.callReturn_kind reply)
            (message.callReturn_registration reply)) trivial
  | beginDisconnect unlocked => exact iff_of_true exact trivial
  | fail index message found locked entry notYet =>
      exact iff_of_true (exact_lose exact found rfl rfl rfl) trivial
  | endDisconnect locked allFailed =>
      refine iff_of_true ?_ trivial
      intro sequence index
      refine iff_of_false (fun holds => by cases holds.1) ?_
      intro awaited
      -- the table held the call, and has been failed with all its entries
      obtain ⟨entry, unlost⟩ := (exact sequence index).mpr awaited
      obtain ⟨message, found, isSequence, -⟩ := awaited
      obtain ⟨bound, -⟩ := List.getElem?_eq_some_iff.mp found
      refine
        unlost message found
          (allFailed index (List.mem_range.mpr bound) message found ?_)
      rw [isSequence]
      exact entry
  | wait index message found =>
      exact
        iff_of_true (exact_of_same exact found rfl rfl rfl rfl rfl) trivial
  | wake index message found =>
      exact
        iff_of_true (exact_of_same exact found rfl rfl rfl rfl rfl) trivial
  | inspect index message found =>
      refine Iff.trans (exact_leave_iff exact found rfl rfl ?_ ?_) ?_
      · exact Registration.leave_ne_pending (by decide) _
      · rw [Ne, Registration.leave_eq_iff (by decide) (by decide)]
      · simp [Unambiguous, found]

end Step

/-! ## Runs -/

/-- In every run of a connection the table maps exactly the numbers of the own
calls that await a reply to these calls, and a reply is matched with the call
that awaits it, if and only if each step of the run is unambiguous. -/
theorem correlated_always_iff {labels : List RpcLabel}
    {final : RpcConnection}
    (execution : run step ({} : RpcConnection) labels = some final) :
    Always step Correlated ({} : RpcConnection) labels ↔
      Along step Unambiguous ({} : RpcConnection) labels := by
  have exactAtStart : ({} : RpcConnection).Exact := by
    intro sequence index
    refine iff_of_false (fun holds => by cases holds.1) ?_
    intro awaited
    obtain ⟨message, found, -⟩ := awaited
    cases found
  apply always_iff_along
    (fun _ _ _ entered stepped =>
      entered_of_moved entered (moved_of_step stepped))
    ?_ entered_start (correlated_iff_exact.mpr exactAtStart) execution
  intro state label next entered correlated stepped
  rw [correlated_iff_exact]
  exact
    exact_iff_of_moved entered correlated.exact (moved_of_step stepped)

/-- A call that is answered, and another that is lost with the connection. -/
theorem correlated_answered_and_lost :
    Always step Correlated ({} : RpcConnection)
      [.send .twoWay 1 0, .sent 0, .wait 0, .takeReply 1 9, .deliver 0,
        .inspect 0, .send .async 2 0, .sent 1, .beginDisconnect, .fail 1,
        .endDisconnect] :=
  (correlated_always_iff
    (@run_eq_outcome RpcConnection RpcLabel step {}
      [.send .twoWay 1 0, .sent 0, .wait 0, .takeReply 1 9, .deliver 0,
        .inspect 0, .send .async 2 0, .sent 1, .beginDisconnect, .fail 1,
        .endDisconnect]
      (by decide))).mpr (by decide)

/-- While the call numbered 1 waits, this side answers a call of the peer that
also has the number 1: the answer replaces the call in the table, and the reply
of the peer completes the answer. -/
theorem answer_replaces_pending_call :
    ¬ Always step Correlated ({} : RpcConnection)
        [.send .twoWay 1 0, .sent 0, .wait 0, .send .reply 1 0, .sent 1,
          .takeReply 1 9, .deliver 0] ∧
      (outcome step ({} : RpcConnection)
        [.send .twoWay 1 0, .sent 0, .wait 0, .send .reply 1 0, .sent 1,
          .takeReply 1 9, .deliver 0] (by decide)).messages.map
            (fun message => (message.pc, message.result)) =
        [(.waiting, none), (.returned, some 9)] := by
  refine ⟨?_, by decide⟩
  intro always
  have correlated :=
    always
      [.send .twoWay 1 0, .sent 0, .wait 0, .send .reply 1 0]
      [.sent 1, .takeReply 1 9, .deliver 0]
      (outcome step ({} : RpcConnection)
        [.send .twoWay 1 0, .sent 0, .wait 0, .send .reply 1 0]
        (by decide)) rfl (run_eq_outcome _ _ _)
  have held :=
    (correlated.exact 1 0).mpr
      ⟨{ kind := .twoWay, sequence := 1, timeout := 0, pc := .waiting },
        by decide, rfl, by decide⟩
  exact absurd held.1 (by decide)

end RpcConnection

end LocationServer

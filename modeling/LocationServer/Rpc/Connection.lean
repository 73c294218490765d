import LocationServer.Foundation.StepSystem
import LocationServer.Foundation.Threads
import Mathlib.Logic.Function.Basic

/-!
# An RPC connection and its callers (`RpcConnection.java`)

`sendMessage` registers a message under its sequence number and sends it;
`doReturnMsg` takes the message registered under the number of a reply out of
the table and completes it; `onDisconnected` holds the lock of the table, sets
the error code of every registered message and clears the table.  A caller of
the emitted two-way method waits on its message after `sendMessage` has
returned, and then inspects the error code and the result.

A message object is its position in the list of all messages sent, and a reply
is a number.  The sequence number of a call is the one that
`getUniqueSequence` has given it; nothing synchronises that counter and it
starts again from 1, so any number can come.  Each synchronized block is one
step, but for the outer block of `onDisconnected`, which spans several.
-/

namespace LocationServer

/-- `RETURN` messages, and calls without and with the bits `ONEWAY` and
`ASYNC`. -/
inductive MessageKind where
  | twoWay
  | oneWay
  | async
  | reply
  deriving DecidableEq, Repr

/-- A reply is expected. -/
def MessageKind.expectsReply : MessageKind → Bool
  | .twoWay | .async => true
  | .oneWay | .reply => false

/-- The thread that sends the message: in `sendDetail`, before and in
`m.wait`, after it, after `sendMessage` has failed, and done. -/
inductive CallerPc where
  | sending
  | sent
  | waiting
  | woken
  | failed
  | returned
  deriving DecidableEq, Repr

/-- After a successful send only the two-way method goes on to wait. -/
def CallerPc.afterSend : MessageKind → CallerPc
  | .twoWay => .sent
  | _ => .returned

/-- `m.notify` wakes the thread that is waiting, if there is one. -/
def CallerPc.notified : CallerPc → CallerPc
  | .waiting => .woken
  | pc => pc

/-- What has become of the registration of a message: a reply has matched it,
the send has failed, the connection was lost, the caller has given up.  The
code does not keep it. -/
inductive Registration where
  | pending
  | matched
  | unsent
  | lost
  | abandoned
  deriving DecidableEq, Repr

/-- A caller that leaves changes a registration only while it is pending. -/
def Registration.leave (after : Registration) :
    Registration → Registration
  | .pending => after
  | registration => registration

theorem Registration.leave_ne {after registration other : Registration}
    (notAfter : after ≠ other) (notBefore : registration ≠ other) :
    Registration.leave after registration ≠ other := by
  cases registration with
  | pending => exact notAfter
  | matched => exact notBefore
  | unsent => exact notBefore
  | lost => exact notBefore
  | abandoned => exact notBefore

theorem Registration.leave_ne_pending {after : Registration}
    (notAfter : after ≠ .pending) (registration : Registration) :
    Registration.leave after registration ≠ .pending := by
  cases registration with
  | pending => exact notAfter
  | matched => exact Registration.noConfusion
  | unsent => exact Registration.noConfusion
  | lost => exact Registration.noConfusion
  | abandoned => exact Registration.noConfusion

theorem Registration.leave_eq_iff {after registration other : Registration}
    (notAfter : after ≠ other) (notPending : other ≠ .pending) :
    Registration.leave after registration = other ↔
      registration = other := by
  cases registration with
  | pending => exact iff_of_false notAfter (Ne.symm notPending)
  | matched => exact Iff.rfl
  | unsent => exact Iff.rfl
  | lost => exact Iff.rfl
  | abandoned => exact Iff.rfl

def rpcErrorSucc : Nat := 0

def rpcErrorConnectionLost : Nat := 104

structure RpcMessage where
  kind : MessageKind
  sequence : Int32
  /-- The limit of the wait; there is none when it is not positive. -/
  timeout : Int := 0
  errcode : Nat := rpcErrorSucc
  result : Option Nat := none
  /-- The replies that `async.callReturn` was called with. -/
  callbacks : List Nat := []
  pc : CallerPc := .sending
  registration : Registration := .pending
  deriving DecidableEq, Repr

namespace RpcMessage

/-- The end of `doReturnMsg`. -/
def callReturn (message : RpcMessage) (reply : Nat) : RpcMessage :=
  if message.kind = .async then
    { message with callbacks := message.callbacks ++ [reply] }
  else
    { message with result := some reply, pc := message.pc.notified }

theorem callReturn_registration (message : RpcMessage) (reply : Nat) :
    (message.callReturn reply).registration = message.registration := by
  rw [callReturn]
  split <;> rfl

theorem callReturn_sequence (message : RpcMessage) (reply : Nat) :
    (message.callReturn reply).sequence = message.sequence := by
  rw [callReturn]
  split <;> rfl

theorem callReturn_kind (message : RpcMessage) (reply : Nat) :
    (message.callReturn reply).kind = message.kind := by
  rw [callReturn]
  split <;> rfl

theorem callReturn_timeout (message : RpcMessage) (reply : Nat) :
    (message.callReturn reply).timeout = message.timeout := by
  rw [callReturn]
  split <;> rfl

theorem callReturn_errcode (message : RpcMessage) (reply : Nat) :
    (message.callReturn reply).errcode = message.errcode := by
  rw [callReturn]
  split <;> rfl

/-- The body of the loop of `onDisconnected`. -/
def lose (message : RpcMessage) : RpcMessage :=
  { message with
    errcode := rpcErrorConnectionLost
    pc := message.pc.notified
    registration := .lost }

/-- An own call that still waits for its reply. -/
def Awaits (message : RpcMessage) : Prop :=
  message.kind.expectsReply = true ∧ message.registration = .pending

instance (message : RpcMessage) : Decidable message.Awaits :=
  inferInstanceAs (Decidable (_ ∧ _))

/-- A result or an error code has been set, and `notify` called. -/
def Completed (message : RpcMessage) : Prop :=
  message.result.isSome = true ∨ message.errcode ≠ rpcErrorSucc

instance (message : RpcMessage) : Decidable message.Completed :=
  inferInstanceAs (Decidable (_ ∨ _))

end RpcMessage

structure RpcConnection where
  messages : List RpcMessage := []
  msglist : Int32 → Option Nat := fun _ => none
  /-- A call of `onDisconnected` holds the lock of the table. -/
  disconnecting : Bool := false
  /-- The matched messages that `doReturnMsg` has not completed yet, with
  their replies. -/
  delivering : List (Nat × Nat) := []
  /-- The messages that were taken out of the table by a reply, or failed and
  cleared by `onDisconnected`, so far. -/
  removed : List Nat := []
  /-- The messages that were completed so far. -/
  completed : List Nat := []

inductive RpcLabel where
  | send (kind : MessageKind) (sequence : Int32) (timeout : Int)
  | sent (index : Nat)
  | failSend (index : Nat)
  | takeReply (sequence : Int32) (reply : Nat)
  | deliver (position : Nat)
  | beginDisconnect
  | fail (index : Nat)
  | endDisconnect
  | wait (index : Nat)
  | wake (index : Nat)
  | inspect (index : Nat)
  deriving DecidableEq, Repr

namespace RpcConnection

/-- The entries of the table have been failed. -/
def AllFailed (state : RpcConnection) : Prop :=
  ∀ index ∈ List.range state.messages.length,
    ∀ message ∈ state.messages[index]?,
      state.msglist message.sequence = some index →
        message.registration = .lost

instance (state : RpcConnection) : Decidable state.AllFailed :=
  inferInstanceAs (Decidable (∀ index ∈ _, ∀ message ∈ _, _))

def step (state : RpcConnection) : RpcLabel → Option RpcConnection
  | .send kind sequence timeout =>
      if state.disconnecting then none
      else
        some
          { state with
            messages := state.messages ++ [{ kind, sequence, timeout }]
            msglist :=
              Function.update state.msglist sequence
                (some state.messages.length) }
  | .sent index =>
      state.messages[index]?.bind fun message =>
        if message.pc = .sending then
          some
            { state with
              messages :=
                state.messages.set index
                  { message with
                    pc := CallerPc.afterSend message.kind } }
        else none
  | .failSend index =>
      state.messages[index]?.bind fun message =>
        if state.disconnecting = false ∧ message.pc = .sending then
          some
            { state with
              messages :=
                state.messages.set index
                  { message with
                    pc := .failed
                    registration :=
                      Registration.leave .unsent message.registration }
              msglist :=
                Function.update state.msglist message.sequence none }
        else none
  | .takeReply sequence reply =>
      if state.disconnecting then none
      else
        match state.msglist sequence with
        | none => some state
        | some index =>
            state.messages[index]?.map fun message =>
              { state with
                messages :=
                  state.messages.set index
                    { message with registration := .matched }
                msglist := Function.update state.msglist sequence none
                delivering := state.delivering ++ [(index, reply)]
                removed := state.removed ++ [index] }
  | .deliver position =>
      state.delivering[position]?.bind fun delivery =>
        state.messages[delivery.1]?.map fun message =>
          { state with
            messages :=
              state.messages.set delivery.1
                (message.callReturn delivery.2)
            delivering := state.delivering.eraseIdx position
            completed := state.completed ++ [delivery.1] }
  | .beginDisconnect =>
      if state.disconnecting then none
      else some { state with disconnecting := true }
  | .fail index =>
      state.messages[index]?.bind fun message =>
        if state.disconnecting = true ∧
            state.msglist message.sequence = some index ∧
            message.registration ≠ .lost then
          some
            { state with
              messages := state.messages.set index message.lose
              removed := state.removed ++ [index]
              completed := state.completed ++ [index] }
        else none
  | .endDisconnect =>
      if state.disconnecting = true ∧ state.AllFailed then
        some
          { state with msglist := fun _ => none, disconnecting := false }
      else none
  | .wait index =>
      state.messages[index]?.bind fun message =>
        if message.pc = .sent then
          some
            { state with
              messages :=
                state.messages.set index { message with pc := .waiting } }
        else none
  -- the limit of the wait, an interrupt, or no reason at all
  | .wake index =>
      state.messages[index]?.bind fun message =>
        if message.pc = .waiting then
          some
            { state with
              messages :=
                state.messages.set index { message with pc := .woken } }
        else none
  | .inspect index =>
      state.messages[index]?.bind fun message =>
        if message.pc = .woken then
          some
            { state with
              messages :=
                state.messages.set index
                  { message with
                    pc := .returned
                    registration :=
                      Registration.leave .abandoned
                        message.registration } }
        else none

/-! ## What a step can do -/

inductive Moved (state : RpcConnection) :
    RpcLabel → RpcConnection → Prop where
  | send (kind : MessageKind) (sequence : Int32) (timeout : Int)
      (unlocked : state.disconnecting = false) :
      Moved state (.send kind sequence timeout)
        { state with
          messages := state.messages ++ [{ kind, sequence, timeout }]
          msglist :=
            Function.update state.msglist sequence
              (some state.messages.length) }
  | sent (index : Nat) (message : RpcMessage)
      (found : state.messages[index]? = some message)
      (sending : message.pc = .sending) :
      Moved state (.sent index)
        { state with
          messages :=
            state.messages.set index
              { message with pc := CallerPc.afterSend message.kind } }
  | failSend (index : Nat) (message : RpcMessage)
      (found : state.messages[index]? = some message)
      (unlocked : state.disconnecting = false) :
      Moved state (.failSend index)
        { state with
          messages :=
            state.messages.set index
              { message with
                pc := .failed
                registration :=
                  Registration.leave .unsent message.registration }
          msglist := Function.update state.msglist message.sequence none }
  | unsolicited (sequence : Int32) (reply : Nat)
      (unlocked : state.disconnecting = false)
      (absent : state.msglist sequence = none) :
      Moved state (.takeReply sequence reply) state
  | takeReply (sequence : Int32) (reply index : Nat) (message : RpcMessage)
      (unlocked : state.disconnecting = false)
      (entry : state.msglist sequence = some index)
      (found : state.messages[index]? = some message) :
      Moved state (.takeReply sequence reply)
        { state with
          messages :=
            state.messages.set index
              { message with registration := .matched }
          msglist := Function.update state.msglist sequence none
          delivering := state.delivering ++ [(index, reply)]
          removed := state.removed ++ [index] }
  | deliver (position index reply : Nat) (message : RpcMessage)
      (present : state.delivering[position]? = some (index, reply))
      (found : state.messages[index]? = some message) :
      Moved state (.deliver position)
        { state with
          messages := state.messages.set index (message.callReturn reply)
          delivering := state.delivering.eraseIdx position
          completed := state.completed ++ [index] }
  | beginDisconnect (unlocked : state.disconnecting = false) :
      Moved state .beginDisconnect { state with disconnecting := true }
  | fail (index : Nat) (message : RpcMessage)
      (found : state.messages[index]? = some message)
      (locked : state.disconnecting = true)
      (entry : state.msglist message.sequence = some index)
      (notYet : message.registration ≠ .lost) :
      Moved state (.fail index)
        { state with
          messages := state.messages.set index message.lose
          removed := state.removed ++ [index]
          completed := state.completed ++ [index] }
  | endDisconnect (locked : state.disconnecting = true)
      (allFailed : state.AllFailed) :
      Moved state .endDisconnect
        { state with msglist := fun _ => none, disconnecting := false }
  | wait (index : Nat) (message : RpcMessage)
      (found : state.messages[index]? = some message) :
      Moved state (.wait index)
        { state with
          messages :=
            state.messages.set index { message with pc := .waiting } }
  | wake (index : Nat) (message : RpcMessage)
      (found : state.messages[index]? = some message) :
      Moved state (.wake index)
        { state with
          messages :=
            state.messages.set index { message with pc := .woken } }
  | inspect (index : Nat) (message : RpcMessage)
      (found : state.messages[index]? = some message) :
      Moved state (.inspect index)
        { state with
          messages :=
            state.messages.set index
              { message with
                pc := .returned
                registration :=
                  Registration.leave .abandoned message.registration } }

theorem moved_of_step {state next : RpcConnection} {label : RpcLabel}
    (stepped : state.step label = some next) : Moved state label next := by
  cases label with
  | send kind sequence timeout =>
      simp only [step, Option.ite_none_left_eq_some, Option.some.injEq,
        Bool.not_eq_true] at stepped
      rw [← stepped.2]
      exact Moved.send kind sequence timeout stepped.1
  | sent index =>
      obtain ⟨message, found, moves⟩ := Option.bind_eq_some_iff.mp stepped
      simp only [Option.ite_none_right_eq_some,
        Option.some.injEq] at moves
      rw [← moves.2]
      exact Moved.sent index message found moves.1
  | failSend index =>
      obtain ⟨message, found, moves⟩ := Option.bind_eq_some_iff.mp stepped
      simp only [Option.ite_none_right_eq_some,
        Option.some.injEq] at moves
      rw [← moves.2]
      exact Moved.failSend index message found moves.1.1
  | takeReply sequence reply =>
      simp only [step, Option.ite_none_left_eq_some,
        Bool.not_eq_true] at stepped
      obtain ⟨unlocked, takes⟩ := stepped
      split at takes
      · rename_i absent
        rw [← Option.some.inj takes]
        exact Moved.unsolicited sequence reply unlocked absent
      · rename_i index entry
        obtain ⟨message, found, isNext⟩ := Option.map_eq_some_iff.mp takes
        rw [← isNext]
        exact Moved.takeReply sequence reply index message unlocked entry
          found
  | deliver position =>
      obtain ⟨⟨index, reply⟩, present, delivers⟩ :=
        Option.bind_eq_some_iff.mp stepped
      obtain ⟨message, found, isNext⟩ := Option.map_eq_some_iff.mp delivers
      rw [← isNext]
      exact Moved.deliver position index reply message present found
  | beginDisconnect =>
      simp only [step, Option.ite_none_left_eq_some, Option.some.injEq,
        Bool.not_eq_true] at stepped
      rw [← stepped.2]
      exact Moved.beginDisconnect stepped.1
  | fail index =>
      obtain ⟨message, found, moves⟩ := Option.bind_eq_some_iff.mp stepped
      simp only [Option.ite_none_right_eq_some,
        Option.some.injEq] at moves
      obtain ⟨⟨locked, entry, notYet⟩, isNext⟩ := moves
      rw [← isNext]
      exact Moved.fail index message found locked entry notYet
  | endDisconnect =>
      simp only [step, Option.ite_none_right_eq_some,
        Option.some.injEq] at stepped
      rw [← stepped.2]
      exact Moved.endDisconnect stepped.1.1 stepped.1.2
  | wait index =>
      obtain ⟨message, found, moves⟩ := Option.bind_eq_some_iff.mp stepped
      simp only [Option.ite_none_right_eq_some,
        Option.some.injEq] at moves
      rw [← moves.2]
      exact Moved.wait index message found
  | wake index =>
      obtain ⟨message, found, moves⟩ := Option.bind_eq_some_iff.mp stepped
      simp only [Option.ite_none_right_eq_some,
        Option.some.injEq] at moves
      rw [← moves.2]
      exact Moved.wake index message found
  | inspect index =>
      obtain ⟨message, found, moves⟩ := Option.bind_eq_some_iff.mp stepped
      simp only [Option.ite_none_right_eq_some,
        Option.some.injEq] at moves
      rw [← moves.2]
      exact Moved.inspect index message found

/-! ## The entries of the table -/

/-- An entry is a message of its number; no reply has matched it, and only a
disconnect in progress has failed it. -/
def Entered (state : RpcConnection) : Prop :=
  ∀ sequence index, state.msglist sequence = some index →
    ∃ message, state.messages[index]? = some message ∧
      message.sequence = sequence ∧ message.registration ≠ .matched ∧
        (state.disconnecting = false → message.registration ≠ .lost)

theorem Entered.at_entry {state : RpcConnection} (entered : state.Entered)
    {sequence : Int32} {index : Nat} {message : RpcMessage}
    (entry : state.msglist sequence = some index)
    (found : state.messages[index]? = some message) :
    message.registration ≠ .matched ∧
      (state.disconnecting = false → message.registration ≠ .lost) := by
  obtain ⟨other, present, -, unmatched, unlost⟩ :=
    entered sequence index entry
  obtain rfl := Option.some.inj (present.symm.trans found)
  exact ⟨unmatched, unlost⟩

theorem update_none_eq_some {msglist : Int32 → Option Nat}
    {removed sequence : Int32} {index : Nat}
    (entry : Function.update msglist removed none sequence = some index) :
    sequence ≠ removed ∧ msglist sequence = some index := by
  by_cases here : sequence = removed
  · rw [here, Function.update_self] at entry
    cases entry
  · rw [Function.update_of_ne here] at entry
    exact ⟨here, entry⟩

section Step

variable {state next : RpcConnection} {label : RpcLabel}

theorem Entered.sequence_eq (entered : state.Entered) {sequence : Int32}
    {index : Nat} {message : RpcMessage}
    (entry : state.msglist sequence = some index)
    (found : state.messages[index]? = some message) :
    message.sequence = sequence := by
  obtain ⟨other, foundOther, isSequence, -⟩ :=
    entered sequence index entry
  rw [← Option.some.inj (foundOther.symm.trans found)]
  exact isSequence

/-- A message changes and keeps its number. -/
theorem entered_set (entered : state.Entered) {index : Nat}
    {before after : RpcMessage}
    (found : state.messages[index]? = some before)
    (sameMessages : next.messages = state.messages.set index after)
    (fewerEntries :
      ∀ sequence other, next.msglist sequence = some other →
        state.msglist sequence = some other)
    (sameSequence : after.sequence = before.sequence)
    (unmatched :
      next.msglist before.sequence = some index →
        before.registration ≠ .matched → after.registration ≠ .matched)
    (unlost :
      next.disconnecting = false →
        state.disconnecting = false ∧
          (next.msglist before.sequence = some index →
            before.registration ≠ .lost → after.registration ≠ .lost)) :
    next.Entered := by
  intro sequence other entry
  obtain ⟨message, foundOther, isSequence, notMatched, notLost⟩ :=
    entered sequence other (fewerEntries sequence other entry)
  rw [sameMessages, Threads.getElem?_set_present found]
  by_cases here : index = other
  · rw [here, foundOther] at found
    have isBefore := Option.some.inj found
    rw [isBefore] at isSequence notMatched notLost
    have registered : next.msglist before.sequence = some index := by
      rw [isSequence, here]
      exact entry
    refine
      ⟨after, if_pos here, sameSequence.trans isSequence,
        unmatched registered notMatched, ?_⟩
    intro unlocked
    obtain ⟨unlockedBefore, kept⟩ := unlost unlocked
    exact kept registered (notLost unlockedBefore)
  · rw [if_neg here]
    exact
      ⟨message, foundOther, isSequence, notMatched,
        fun unlocked => notLost (unlost unlocked).1⟩

/-- A message changes, but neither its registration nor the table. -/
theorem entered_set_of_same (entered : state.Entered) {index : Nat}
    {before after : RpcMessage}
    (found : state.messages[index]? = some before)
    (sameMessages : next.messages = state.messages.set index after)
    (sameTable : next.msglist = state.msglist)
    (sameLock : next.disconnecting = state.disconnecting)
    (sameSequence : after.sequence = before.sequence)
    (sameRegistration : after.registration = before.registration) :
    next.Entered := by
  apply entered_set entered found sameMessages ?_ sameSequence
  · intro _ unmatched
    rw [sameRegistration]
    exact unmatched
  · intro unlocked
    refine ⟨sameLock.symm.trans unlocked, ?_⟩
    intro _ unlost
    rw [sameRegistration]
    exact unlost
  · intro sequence other entry
    rw [← sameTable]
    exact entry

/-- A message changes and its number leaves the table. -/
theorem entered_drop (entered : state.Entered) {index : Nat}
    {before after : RpcMessage}
    (found : state.messages[index]? = some before)
    (sameMessages : next.messages = state.messages.set index after)
    (dropped :
      next.msglist =
        Function.update state.msglist before.sequence none)
    (unlocked : state.disconnecting = false)
    (sameSequence : after.sequence = before.sequence) :
    next.Entered := by
  have noEntry : next.msglist before.sequence ≠ some index := by
    rw [dropped, Function.update_self]
    simp
  apply entered_set entered found sameMessages ?_ sameSequence
  · intro entry
    exact absurd entry noEntry
  · intro _
    exact ⟨unlocked, fun entry => absurd entry noEntry⟩
  · intro sequence other entry
    rw [dropped] at entry
    exact (update_none_eq_some entry).2

theorem entered_of_moved (entered : state.Entered)
    (moved : Moved state label next) : next.Entered := by
  cases moved with
  | send kind sequence timeout unlocked =>
      intro other index entry
      dsimp only at entry
      by_cases here : other = sequence
      · rw [here, Function.update_self] at entry
        rw [here, ← Option.some.inj entry]
        exact ⟨{ kind, sequence, timeout }, by simp, rfl, by simp⟩
      · rw [Function.update_of_ne here] at entry
        obtain ⟨message, found, rest⟩ := entered other index entry
        obtain ⟨bound, -⟩ := List.getElem?_eq_some_iff.mp found
        refine ⟨message, ?_, rest⟩
        exact (List.getElem?_append_left bound).trans found
  | sent index message found sending =>
      exact entered_set_of_same entered found rfl rfl rfl rfl rfl
  | failSend index message found unlocked =>
      exact entered_drop entered found rfl rfl unlocked rfl
  | unsolicited sequence reply unlocked absent => exact entered
  | takeReply sequence reply index message unlocked entry found =>
      have isSequence := entered.sequence_eq entry found
      refine entered_drop entered found rfl ?_ unlocked rfl
      rw [isSequence]
  | deliver position index reply message present found =>
      exact
        entered_set_of_same entered found rfl rfl rfl
          (message.callReturn_sequence reply)
          (message.callReturn_registration reply)
  | beginDisconnect unlocked =>
      intro sequence index entry
      obtain ⟨message, found, isSequence, unmatched, -⟩ :=
        entered sequence index entry
      exact
        ⟨message, found, isSequence, unmatched, fun free => by cases free⟩
  | fail index message found locked entry notYet =>
      refine entered_set entered found rfl (fun _ _ => id) rfl ?_ ?_
      · intro _ _
        exact Registration.noConfusion
      · intro unlocked
        exact absurd (locked.symm.trans unlocked) (by decide)
  | endDisconnect locked allFailed =>
      intro sequence index entry
      cases entry
  | wait index message found =>
      exact entered_set_of_same entered found rfl rfl rfl rfl rfl
  | wake index message found =>
      exact entered_set_of_same entered found rfl rfl rfl rfl rfl
  | inspect index message found =>
      refine entered_set entered found rfl (fun _ _ => id) rfl ?_ ?_
      · intro _ unmatched
        exact Registration.leave_ne (by decide) unmatched
      · intro unlocked
        exact
          ⟨unlocked,
            fun _ unlost => Registration.leave_ne (by decide) unlost⟩

theorem entered_start : ({} : RpcConnection).Entered := by
  intro sequence index entry
  cases entry

end Step

end RpcConnection

end LocationServer

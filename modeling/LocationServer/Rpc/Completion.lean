import LocationServer.Rpc.Connection
import Mathlib.Data.List.Perm.Basic

/-!
# The completion of a call

A call is completed when `doReturnMsg` sets its result or calls its callback,
or when `onDisconnected` sets its error code.  Removing a call from the table
and completing it are two steps of `doReturnMsg`; the lock of the table alone
decides which of several replies and disconnects completes the call.
-/

namespace LocationServer

open StepSystem

/-- How often a registration of this kind has been taken out of the table by a
reply or a lost connection. -/
def Registration.removals : Registration → Nat
  | .matched | .lost => 1
  | .pending | .unsent | .abandoned => 0

theorem Registration.removals_le_one (registration : Registration) :
    registration.removals ≤ 1 := by
  cases registration <;> decide

theorem Registration.removals_leave {after : Registration}
    (notRemoved : after.removals = 0) (registration : Registration) :
    (Registration.leave after registration).removals =
      registration.removals := by
  cases registration with
  | pending => exact notRemoved
  | matched => rfl
  | unsent => rfl
  | lost => rfl
  | abandoned => rfl

theorem Registration.removals_eq_zero {registration : Registration}
    (unmatched : registration ≠ .matched) (unlost : registration ≠ .lost) :
    registration.removals = 0 := by
  cases registration with
  | pending => rfl
  | matched => exact absurd rfl unmatched
  | unsent => rfl
  | lost => exact absurd rfl unlost
  | abandoned => rfl

/-- A result comes from a reply that matched, an error code from a lost
connection. -/
def RpcMessage.Explained (message : RpcMessage) : Prop :=
  (message.result.isSome = true → message.registration = .matched) ∧
    (message.errcode ≠ rpcErrorSucc → message.registration = .lost)

theorem RpcMessage.Explained.leave {message : RpcMessage}
    (explained : message.Explained) (after : Registration)
    (pc : CallerPc) :
    RpcMessage.Explained
      { message with
        pc
        registration :=
          Registration.leave after message.registration } := by
  refine ⟨?_, ?_⟩
  · intro hasResult
    exact congrArg (Registration.leave after) (explained.1 hasResult)
  · intro hasCode
    exact congrArg (Registration.leave after) (explained.2 hasCode)

namespace RpcConnection

/-- How often a message has been taken out of the table. -/
def removals (state : RpcConnection) (index : Nat) : Nat :=
  (state.messages[index]?.map fun message =>
    message.registration.removals).getD 0

/-- No message is taken out of the table twice by replies and disconnects, only
such a message is completed, and once; none has a result and has also lost its
connection. -/
structure CompletedOnce (state : RpcConnection) : Prop where
  removedOnce : state.removed.Nodup
  completedOnce : state.completed.Nodup
  completedRemoved : ∀ index ∈ state.completed, index ∈ state.removed
  exclusive :
    ∀ message ∈ state.messages, message.result.isSome = true →
      message.errcode ≠ rpcErrorConnectionLost

structure Settled (state : RpcConnection) : Prop where
  entered : state.Entered
  counted : ∀ index, state.removed.count index = state.removals index
  delivered :
    ∀ index,
      state.completed.count index +
          (state.delivering.map Prod.fst).count index =
        state.removed.count index
  matched :
    ∀ delivery ∈ state.delivering,
      ∀ message ∈ state.messages[delivery.1]?,
        message.registration = .matched
  explained : ∀ message ∈ state.messages, message.Explained

theorem Settled.explained_at {state : RpcConnection}
    (settled : state.Settled) {index : Nat} {message : RpcMessage}
    (found : state.messages[index]? = some message) : message.Explained :=
  settled.explained message (List.mem_of_getElem? found)

theorem Settled.completedOnce {state : RpcConnection}
    (settled : state.Settled) : state.CompletedOnce := by
  have once : ∀ index, state.removals index ≤ 1 := by
    intro index
    rw [removals]
    cases state.messages[index]? with
    | none => exact Nat.zero_le 1
    | some message => exact message.registration.removals_le_one
  refine ⟨?_, ?_, ?_, ?_⟩
  · apply List.nodup_iff_count.mpr
    intro index
    rw [settled.counted]
    exact once index
  · apply List.nodup_iff_count.mpr
    intro index
    have delivered := settled.delivered index
    have counted := settled.counted index
    have atMost := once index
    omega
  · intro index member
    have delivered := settled.delivered index
    rw [← List.count_pos_iff] at member ⊢
    omega
  · intro message member hasResult isLost
    obtain ⟨fromReply, fromLoss⟩ := settled.explained message member
    have isMatched := fromReply hasResult
    have notMatched := fromLoss (by rw [isLost]; decide)
    rw [isMatched] at notMatched
    cases notMatched

section Step

variable {state next : RpcConnection} {label : RpcLabel}

theorem removals_of_found {index : Nat} {message : RpcMessage}
    (found : state.messages[index]? = some message) :
    state.removals index = message.registration.removals := by
  rw [removals, found]
  rfl

theorem removals_set {index : Nat} {before after : RpcMessage}
    (found : state.messages[index]? = some before)
    (sameMessages : next.messages = state.messages.set index after)
    (other : Nat) :
    next.removals other =
      if index = other then after.registration.removals
      else state.removals other := by
  rw [removals, sameMessages, Threads.getElem?_set_present found]
  by_cases here : index = other
  · rw [if_pos here, if_pos here]
    rfl
  · rw [if_neg here, if_neg here, removals]

/-- The replies to be delivered belong to matched messages, also after one of
the messages has changed. -/
theorem matched_set {index : Nat} {before after : RpcMessage}
    {deliveries : List (Nat × Nat)}
    (found : state.messages[index]? = some before)
    (sameMessages : next.messages = state.messages.set index after)
    (matched :
      ∀ delivery ∈ deliveries, ∀ message ∈ state.messages[delivery.1]?,
        message.registration = .matched)
    (keeps :
      before.registration = .matched → after.registration = .matched) :
    ∀ delivery ∈ deliveries, ∀ message ∈ next.messages[delivery.1]?,
      message.registration = .matched := by
  intro delivery member message foundNext
  rw [sameMessages, Threads.getElem?_set_present found] at foundNext
  by_cases here : index = delivery.1
  · rw [if_pos here] at foundNext
    rw [← Option.some.inj foundNext]
    rw [here] at found
    exact keeps (matched delivery member before found)
  · rw [if_neg here] at foundNext
    exact matched delivery member message foundNext

/-- A message changes without being removed or completed. -/
theorem settled_set (settled : state.Settled) (entered : next.Entered)
    {index : Nat} {before after : RpcMessage}
    (found : state.messages[index]? = some before)
    (sameMessages : next.messages = state.messages.set index after)
    (sameDelivering : next.delivering = state.delivering)
    (sameRemoved : next.removed = state.removed)
    (sameCompleted : next.completed = state.completed)
    (sameRemovals :
      after.registration.removals = before.registration.removals)
    (keeps :
      before.registration = .matched → after.registration = .matched)
    (explained : after.Explained) : next.Settled := by
  refine ⟨entered, ?_, ?_, ?_, ?_⟩
  · intro other
    rw [sameRemoved, removals_set found sameMessages, settled.counted]
    by_cases here : index = other
    · rw [if_pos here, sameRemovals, ← here, removals_of_found found]
    · rw [if_neg here]
  · intro other
    rw [sameDelivering, sameRemoved, sameCompleted]
    exact settled.delivered other
  · rw [sameDelivering]
    exact matched_set found sameMessages settled.matched keeps
  · rw [sameMessages]
    exact Threads.forall_mem_set settled.explained explained

/-- A message is taken out of the table: none of the two ways out has been
taken before. -/
theorem counted_remove (settled : state.Settled) {index : Nat}
    {before after : RpcMessage}
    (found : state.messages[index]? = some before)
    (sameMessages : next.messages = state.messages.set index after)
    (removed : next.removed = state.removed ++ [index])
    (first : before.registration.removals = 0)
    (now : after.registration.removals = 1) (other : Nat) :
    next.removed.count other = next.removals other := by
  rw [removed, removals_set found sameMessages, List.count_append,
    settled.counted, List.count_singleton]
  by_cases here : index = other
  · rw [if_pos here, ← here, removals_of_found found, first, now]
    simp
  · rw [if_neg here]
    simp [here]

theorem settled_send (settled : state.Settled) (entered : next.Entered)
    {new : RpcMessage}
    (sameMessages : next.messages = state.messages ++ [new])
    (sameDelivering : next.delivering = state.delivering)
    (sameRemoved : next.removed = state.removed)
    (sameCompleted : next.completed = state.completed)
    (pending : new.registration = .pending)
    (explained : new.Explained) : next.Settled := by
  have unsent : state.removals state.messages.length = 0 := by
    simp [removals]
  have sameRemovals : ∀ index, next.removals index = state.removals index := by
    intro index
    by_cases isNew : index = state.messages.length
    · rw [isNew, unsent, removals, sameMessages]
      simp [pending, Registration.removals]
    · rw [removals, removals, sameMessages]
      rcases Nat.lt_or_gt_of_ne isNew with older | beyond
      · rw [List.getElem?_append_left older]
      · rw [List.getElem?_eq_none (by simp; omega),
          List.getElem?_eq_none (by omega)]
  refine ⟨entered, ?_, ?_, ?_, ?_⟩
  · intro index
    rw [sameRemoved, sameRemovals]
    exact settled.counted index
  · intro index
    rw [sameDelivering, sameRemoved, sameCompleted]
    exact settled.delivered index
  · intro delivery member message found
    rw [sameDelivering] at member
    rw [sameMessages] at found
    have sent : delivery.1 < state.messages.length := by
      by_contra beyond
      have unremoved : state.removals delivery.1 = 0 := by
        rw [removals, List.getElem?_eq_none (by omega)]
        rfl
      have waiting : 0 < (state.delivering.map Prod.fst).count delivery.1 :=
        List.count_pos_iff.mpr (List.mem_map_of_mem member)
      have delivered := settled.delivered delivery.1
      have counted := settled.counted delivery.1
      omega
    rw [List.getElem?_append_left sent] at found
    exact settled.matched delivery member message found
  · rw [sameMessages]
    exact Threads.forall_mem_concat settled.explained explained

/-- A reply that has matched completes its message. -/
theorem settled_deliver (settled : state.Settled) (entered : next.Entered)
    {position index reply : Nat} {message : RpcMessage}
    (present : state.delivering[position]? = some (index, reply))
    (found : state.messages[index]? = some message)
    (sameMessages :
      next.messages = state.messages.set index (message.callReturn reply))
    (delivered : next.delivering = state.delivering.eraseIdx position)
    (sameRemoved : next.removed = state.removed)
    (completed : next.completed = state.completed ++ [index]) :
    next.Settled := by
  have isMatched :=
    settled.matched (index, reply) (List.mem_of_getElem? present) message
      found
  have sameRegistration := message.callReturn_registration reply
  have explained := settled.explained message (List.mem_of_getElem? found)
  refine ⟨entered, ?_, ?_, ?_, ?_⟩
  · intro other
    rw [sameRemoved, removals_set found sameMessages, settled.counted,
      sameRegistration]
    by_cases here : index = other
    · rw [if_pos here, ← here, removals_of_found found]
    · rw [if_neg here]
  · intro other
    obtain ⟨bound, here⟩ := List.getElem?_eq_some_iff.mp present
    have before := settled.delivered other
    have counted :=
      ((List.getElem_cons_eraseIdx_perm bound).map Prod.fst).count_eq other
    rw [here, List.map_cons, List.count_cons, ← List.count_singleton]
      at counted
    rw [delivered, sameRemoved, completed, List.count_append]
    dsimp only at counted
    omega
  · rw [delivered]
    apply matched_set found sameMessages
    · intro delivery member
      exact settled.matched delivery (List.mem_of_mem_eraseIdx member)
    · intro _
      exact sameRegistration.trans isMatched
  · rw [sameMessages]
    apply Threads.forall_mem_set settled.explained
    refine ⟨fun _ => sameRegistration.trans isMatched, ?_⟩
    intro hasCode
    rw [message.callReturn_errcode] at hasCode
    exact sameRegistration.trans (explained.2 hasCode)

theorem settled_of_moved (settled : state.Settled)
    (moved : Moved state label next) : next.Settled := by
  have entered := entered_of_moved settled.entered moved
  cases moved with
  | send kind sequence timeout unlocked =>
      refine settled_send settled entered rfl rfl rfl rfl rfl ⟨?_, ?_⟩
      · intro hasResult
        cases hasResult
      · intro hasCode
        exact absurd rfl hasCode
  | sent index message found sending =>
      exact
        settled_set settled entered found rfl rfl rfl rfl rfl id
          (settled.explained message (List.mem_of_getElem? found))
  | failSend index message found unlocked =>
      have explained := settled.explained_at found
      exact
        settled_set settled entered found rfl rfl rfl rfl
          (Registration.removals_leave rfl _)
          (congrArg (Registration.leave .unsent)) (explained.leave _ _)
  | unsolicited sequence reply unlocked absent => exact settled
  | takeReply sequence reply index message unlocked entry found =>
      obtain ⟨unmatched, unlost⟩ := settled.entered.at_entry entry found
      have first :=
        Registration.removals_eq_zero unmatched (unlost unlocked)
      have explained := settled.explained_at found
      refine ⟨entered, ?_, ?_, ?_, ?_⟩
      · exact counted_remove settled found rfl rfl first rfl
      · intro position
        have delivered := settled.delivered position
        simp only [List.map_append, List.map_cons, List.map_nil,
          List.count_append]
        omega
      · intro delivery member later foundLater
        rcases List.mem_append.mp member with older | new
        · exact
            matched_set found rfl settled.matched (fun _ => rfl) delivery
              older later foundLater
        · rw [List.mem_singleton.mp new] at foundLater
          dsimp only at foundLater
          rw [Threads.getElem?_set_moved found] at foundLater
          rw [← Option.some.inj foundLater]
      · apply Threads.forall_mem_set settled.explained
        refine ⟨fun _ => rfl, ?_⟩
        intro hasCode
        exact absurd (explained.2 hasCode) (unlost unlocked)
  | deliver position index reply message present found =>
      exact
        settled_deliver settled entered present found rfl rfl rfl rfl
  | beginDisconnect unlocked =>
      exact
        ⟨entered, settled.counted, settled.delivered, settled.matched,
          settled.explained⟩
  | fail index message found locked entry notYet =>
      have unmatched := (settled.entered.at_entry entry found).1
      have first := Registration.removals_eq_zero unmatched notYet
      have explained := settled.explained_at found
      refine ⟨entered, ?_, ?_, ?_, ?_⟩
      · exact counted_remove settled found rfl rfl first rfl
      · intro position
        have delivered := settled.delivered position
        simp only [List.count_append]
        omega
      · exact
          matched_set found rfl settled.matched
            fun isMatched => absurd isMatched unmatched
      · apply Threads.forall_mem_set settled.explained
        refine ⟨?_, fun _ => rfl⟩
        intro hasResult
        exact absurd (explained.1 hasResult) unmatched
  | endDisconnect locked allFailed =>
      exact
        ⟨entered, settled.counted, settled.delivered, settled.matched,
          settled.explained⟩
  | wait index message found =>
      exact
        settled_set settled entered found rfl rfl rfl rfl rfl id
          (settled.explained message (List.mem_of_getElem? found))
  | wake index message found =>
      exact
        settled_set settled entered found rfl rfl rfl rfl rfl id
          (settled.explained message (List.mem_of_getElem? found))
  | inspect index message found =>
      have explained := settled.explained_at found
      exact
        settled_set settled entered found rfl rfl rfl rfl
          (Registration.removals_leave rfl _)
          (congrArg (Registration.leave .abandoned)) (explained.leave _ _)

end Step

theorem settled_start : ({} : RpcConnection).Settled where
  entered := entered_start
  counted := fun _ => rfl
  delivered := fun _ => rfl
  matched := by simp
  explained := by simp

/-- In every run of a connection each call is completed at most once. -/
theorem completedOnce_of_run {labels : List RpcLabel}
    {final : RpcConnection}
    (execution : run step ({} : RpcConnection) labels = some final) :
    final.CompletedOnce := by
  have settled : final.Settled :=
    invariant_of_run
      (fun _ _ _ settled stepped =>
        settled_of_moved settled (moved_of_step stepped))
      settled_start execution
  exact settled.completedOnce

/-- Two calls, one answered twice and the other lost; the duplicate of the
reply finds nothing. -/
theorem completedOnce_with_duplicate :
    (outcome step ({} : RpcConnection)
      [.send .twoWay 1 0, .sent 0, .send .twoWay 2 0, .takeReply 1 8,
        .takeReply 1 9, .beginDisconnect, .deliver 0, .fail 1,
        .endDisconnect] (by decide)).CompletedOnce :=
  completedOnce_of_run
    (@run_eq_outcome RpcConnection RpcLabel step {}
      [.send .twoWay 1 0, .sent 0, .send .twoWay 2 0, .takeReply 1 8,
        .takeReply 1 9, .beginDisconnect, .deliver 0, .fail 1,
        .endDisconnect] (by decide))

end RpcConnection

end LocationServer

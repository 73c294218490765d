import LocationServer.Rpc.Connection

/-!
# The wait of the emitted two-way method

The two-way method waits without looking whether its call has been completed
since `sendMessage` registered it, so that the notification can be lost.
-/

namespace LocationServer

open StepSystem

theorem CallerPc.notified_ne_waiting (pc : CallerPc) :
    pc.notified ≠ .waiting := by
  cases pc with
  | sending => exact CallerPc.noConfusion
  | sent => exact CallerPc.noConfusion
  | waiting => exact CallerPc.noConfusion
  | woken => exact CallerPc.noConfusion
  | failed => exact CallerPc.noConfusion
  | returned => exact CallerPc.noConfusion

theorem CallerPc.afterSend_ne_waiting (kind : MessageKind) :
    CallerPc.afterSend kind ≠ .waiting := by
  cases kind with
  | twoWay => exact CallerPc.noConfusion
  | oneWay => exact CallerPc.noConfusion
  | async => exact CallerPc.noConfusion
  | reply => exact CallerPc.noConfusion

namespace RpcConnection

/-- No caller without a time limit waits for a call that has been completed,
with its notification. -/
def NoLostWakeUp (state : RpcConnection) : Prop :=
  ∀ message ∈ state.messages,
    message.timeout ≤ 0 → message.pc = .waiting → ¬ message.Completed

/-- A caller without a time limit begins to wait before its call is
completed. -/
def WaitsInTime (state : RpcConnection) : RpcLabel → Prop
  | .wait index =>
      ∀ message ∈ state.messages[index]?,
        message.timeout ≤ 0 → ¬ message.Completed
  | _ => True

instance (state : RpcConnection) : DecidablePred state.WaitsInTime
  | .send _ _ _ => inferInstanceAs (Decidable True)
  | .sent _ => inferInstanceAs (Decidable True)
  | .failSend _ => inferInstanceAs (Decidable True)
  | .takeReply _ _ => inferInstanceAs (Decidable True)
  | .deliver _ => inferInstanceAs (Decidable True)
  | .beginDisconnect => inferInstanceAs (Decidable True)
  | .fail _ => inferInstanceAs (Decidable True)
  | .endDisconnect => inferInstanceAs (Decidable True)
  | .wait _ => inferInstanceAs (Decidable (∀ message ∈ _, _))
  | .wake _ => inferInstanceAs (Decidable True)
  | .inspect _ => inferInstanceAs (Decidable True)

/-- A reply wakes the caller or leaves the message as incomplete as it was. -/
theorem not_completed_callReturn {message : RpcMessage} {reply : Nat}
    (waiting : (message.callReturn reply).pc = .waiting)
    (incomplete : message.pc = .waiting → ¬ message.Completed) :
    ¬ (message.callReturn reply).Completed := by
  rw [RpcMessage.callReturn] at waiting ⊢
  split at waiting
  · rename_i isAsync
    rw [if_pos isAsync]
    exact incomplete waiting
  · exact absurd waiting (CallerPc.notified_ne_waiting _)

section Step

variable {state next : RpcConnection} {label : RpcLabel}

theorem noLostWakeUp_set (safe : state.NoLostWakeUp) {index : Nat}
    {after : RpcMessage}
    (sameMessages : next.messages = state.messages.set index after)
    (afterSafe : after.timeout ≤ 0 → after.pc = .waiting → ¬ after.Completed) :
    next.NoLostWakeUp := by
  rw [NoLostWakeUp, sameMessages]
  exact Threads.forall_mem_set safe afterSafe

theorem noLostWakeUp_iff_of_moved (safe : state.NoLostWakeUp)
    (moved : Moved state label next) :
    next.NoLostWakeUp ↔ state.WaitsInTime label := by
  cases moved with
  | send kind sequence timeout unlocked =>
      refine iff_of_true ?_ trivial
      exact Threads.forall_mem_concat safe fun _ waiting => by cases waiting
  | sent index message found sending =>
      refine iff_of_true (noLostWakeUp_set safe rfl ?_) trivial
      intro _ waiting
      exact absurd waiting (CallerPc.afterSend_ne_waiting _)
  | failSend index message found unlocked =>
      refine iff_of_true (noLostWakeUp_set safe rfl ?_) trivial
      intro _ waiting
      cases waiting
  | unsolicited sequence reply unlocked absent =>
      exact iff_of_true safe trivial
  | takeReply sequence reply index message unlocked entry found =>
      refine iff_of_true (noLostWakeUp_set safe rfl ?_) trivial
      exact safe message (List.mem_of_getElem? found)
  | deliver position index reply message present found =>
      refine iff_of_true (noLostWakeUp_set safe rfl ?_) trivial
      intro noLimit waiting
      rw [message.callReturn_timeout] at noLimit
      exact
        not_completed_callReturn waiting
          (safe message (List.mem_of_getElem? found) noLimit)
  | beginDisconnect unlocked => exact iff_of_true safe trivial
  | fail index message found locked entry notYet =>
      refine iff_of_true (noLostWakeUp_set safe rfl ?_) trivial
      intro _ waiting
      exact absurd waiting (CallerPc.notified_ne_waiting _)
  | endDisconnect locked allFailed => exact iff_of_true safe trivial
  | wait index message found =>
      have isMessage :
          state.WaitsInTime (.wait index) ↔
            (message.timeout ≤ 0 → ¬ message.Completed) := by
        simp [WaitsInTime, found]
      rw [isMessage]
      constructor
      · intro safeNext noLimit
        exact
          safeNext { message with pc := .waiting }
            (Threads.mem_set_self found) noLimit rfl
      · intro inTime
        exact noLostWakeUp_set safe rfl fun noLimit _ => inTime noLimit
  | wake index message found =>
      refine iff_of_true (noLostWakeUp_set safe rfl ?_) trivial
      intro _ waiting
      cases waiting
  | inspect index message found =>
      refine iff_of_true (noLostWakeUp_set safe rfl ?_) trivial
      intro _ waiting
      cases waiting

end Step

/-- In every run of a connection no caller without a time limit waits for a
call whose completion it has missed, if and only if each such caller begins to
wait before the call is completed. -/
theorem noLostWakeUp_always_iff {labels : List RpcLabel}
    {final : RpcConnection}
    (execution : run step ({} : RpcConnection) labels = some final) :
    Always step NoLostWakeUp ({} : RpcConnection) labels ↔
      Along step WaitsInTime ({} : RpcConnection) labels := by
  have safeAtStart : ({} : RpcConnection).NoLostWakeUp := by
    intro message member
    cases member
  apply
    @always_iff_along RpcConnection RpcLabel step WaitsInTime
      (fun _ => True) NoLostWakeUp (fun _ _ _ _ _ => trivial) ?_ {} final
      labels trivial safeAtStart execution
  intro state label next _ safe stepped
  exact noLostWakeUp_iff_of_moved safe (moved_of_step stepped)

/-- A reply and a lost connection that find their callers waiting. -/
theorem noLostWakeUp_waiting_callers :
    Always step NoLostWakeUp ({} : RpcConnection)
      [.send .twoWay 1 0, .sent 0, .wait 0, .takeReply 1 9, .deliver 0,
        .inspect 0, .send .twoWay 2 0, .sent 1, .wait 1, .beginDisconnect,
        .fail 1, .endDisconnect, .inspect 1] :=
  (noLostWakeUp_always_iff
    (@run_eq_outcome RpcConnection RpcLabel step {}
      [.send .twoWay 1 0, .sent 0, .wait 0, .takeReply 1 9, .deliver 0,
        .inspect 0, .send .twoWay 2 0, .sent 1, .wait 1, .beginDisconnect,
        .fail 1, .endDisconnect, .inspect 1]
      (by decide))).mpr (by decide)

/-- The reply arrives between the return of `sendMessage` and the wait. -/
theorem early_reply_is_not_noticed :
    ¬ (outcome step ({} : RpcConnection)
        [.send .twoWay 1 0, .sent 0, .takeReply 1 9, .deliver 0, .wait 0]
        (by decide)).NoLostWakeUp := by
  intro safe
  exact
    safe
      { kind := .twoWay, sequence := 1, timeout := 0, pc := .waiting
        result := some 9, registration := .matched }
      (by decide) (by decide) rfl (by decide)

end RpcConnection

end LocationServer

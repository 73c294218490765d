import LocationServer.Rpc.Connection
import Mathlib.Data.List.InsertIdx

/-!
# The names of replies

A connection only stores the numbers that stand for replies, so what it does
is the same under other numbers.
-/

namespace LocationServer

def RpcMessage.rename (names : Nat → Nat) (message : RpcMessage) :
    RpcMessage :=
  { message with
    result := message.result.map names
    callbacks := message.callbacks.map names }

def RpcLabel.rename (names : Nat → Nat) : RpcLabel → RpcLabel
  | .takeReply sequence reply => .takeReply sequence (names reply)
  | label => label

theorem RpcMessage.rename_callReturn (names : Nat → Nat)
    (message : RpcMessage) (reply : Nat) :
    (message.callReturn reply).rename names =
      (message.rename names).callReturn (names reply) := by
  rw [callReturn, callReturn]
  by_cases isAsync : message.kind = .async
  · have same : (message.rename names).kind = .async := isAsync
    rw [if_pos isAsync, if_pos same]
    simp [rename]
  · have same : (message.rename names).kind ≠ .async := isAsync
    rw [if_neg isAsync, if_neg same]
    rfl

namespace RpcConnection

def rename (names : Nat → Nat) (state : RpcConnection) : RpcConnection :=
  { state with
    messages := state.messages.map (RpcMessage.rename names)
    delivering :=
      state.delivering.map fun delivery => (delivery.1, names delivery.2) }

variable {names : Nat → Nat} {state next : RpcConnection} {label : RpcLabel}

theorem getElem?_rename {index : Nat} {message : RpcMessage}
    (found : state.messages[index]? = some message) :
    (state.rename names).messages[index]? = some (message.rename names) := by
  rw [rename, List.getElem?_map, found]
  rfl

theorem allFailed_rename (failed : state.AllFailed) :
    (state.rename names).AllFailed := by
  intro index inside message found entry
  rw [rename, List.length_map] at inside
  rw [rename, List.getElem?_map] at found
  obtain ⟨before, present, rfl⟩ := Option.map_eq_some_iff.mp found
  exact failed index inside before present entry

/-- A step that changes one message, on a condition on this message, does the
same under other names. -/
theorem change_rename {index : Nat}
    {enabled enabledToo : RpcMessage → Prop} [DecidablePred enabled]
    [DecidablePred enabledToo] {after afterToo : RpcMessage → RpcConnection}
    (stepped :
      (state.messages[index]?.bind fun message =>
          if enabled message then some (after message) else none) =
        some next)
    (sameEnabled :
      ∀ message, enabled message → enabledToo (message.rename names))
    (sameAfter :
      ∀ message,
        afterToo (message.rename names) = (after message).rename names) :
    ((state.rename names).messages[index]?.bind fun message =>
        if enabledToo message then some (afterToo message) else none) =
      some (next.rename names) := by
  obtain ⟨message, found, moves⟩ := Option.bind_eq_some_iff.mp stepped
  simp only [Option.ite_none_right_eq_some, Option.some.injEq] at moves
  obtain ⟨isEnabled, rfl⟩ := moves
  rw [getElem?_rename found, Option.bind_some,
    if_pos (sameEnabled message isEnabled), sameAfter]

theorem step_rename (stepped : state.step label = some next) :
    (state.rename names).step (label.rename names) =
      some (next.rename names) := by
  cases label with
  | send kind sequence timeout =>
      simp only [step, Option.ite_none_left_eq_some,
        Option.some.injEq] at stepped
      obtain ⟨unlocked, rfl⟩ := stepped
      refine (if_neg unlocked).trans ?_
      simp [rename, RpcMessage.rename]
  | sent index =>
      apply change_rename stepped
      · exact fun message enabled => enabled
      · intro message
        simp [rename, RpcMessage.rename, List.map_set]
  | failSend index =>
      apply change_rename stepped
      · exact fun message enabled => enabled
      · intro message
        simp [rename, RpcMessage.rename, List.map_set]
  | takeReply sequence reply =>
      simp only [step, Option.ite_none_left_eq_some] at stepped
      obtain ⟨unlocked, takes⟩ := stepped
      rw [RpcLabel.rename, step]
      refine (if_neg unlocked).trans ?_
      have sameTable :
          (state.rename names).msglist sequence = state.msglist sequence :=
        rfl
      rw [sameTable]
      cases entry : state.msglist sequence with
      | none =>
          rw [entry] at takes
          rw [← Option.some.inj takes]
      | some index =>
          rw [entry] at takes
          obtain ⟨message, found, rfl⟩ := Option.map_eq_some_iff.mp takes
          dsimp only
          rw [getElem?_rename found, Option.map_some]
          simp [rename, RpcMessage.rename, List.map_set]
  | deliver position =>
      obtain ⟨⟨index, reply⟩, present, delivers⟩ :=
        Option.bind_eq_some_iff.mp stepped
      obtain ⟨message, found, rfl⟩ := Option.map_eq_some_iff.mp delivers
      have waits :
          (state.rename names).delivering[position]? =
            some (index, names reply) := by
        rw [rename, List.getElem?_map, present]
        rfl
      change Option.bind ((state.rename names).delivering[position]?) _ = _
      rw [waits, Option.bind_some]
      dsimp only
      rw [getElem?_rename found, Option.map_some,
        ← RpcMessage.rename_callReturn]
      simp [rename, List.map_set, List.eraseIdx_map]
  | beginDisconnect =>
      simp only [step, Option.ite_none_left_eq_some,
        Option.some.injEq] at stepped
      obtain ⟨unlocked, rfl⟩ := stepped
      exact if_neg unlocked
  | fail index =>
      apply change_rename stepped
      · exact fun message enabled => enabled
      · intro message
        simp [rename, RpcMessage.rename, RpcMessage.lose, List.map_set]
  | endDisconnect =>
      simp only [step, Option.ite_none_right_eq_some,
        Option.some.injEq] at stepped
      obtain ⟨⟨locked, failed⟩, rfl⟩ := stepped
      exact if_pos ⟨locked, allFailed_rename failed⟩
  | wait index =>
      apply change_rename stepped
      · exact fun message enabled => enabled
      · intro message
        simp [rename, RpcMessage.rename, List.map_set]
  | wake index =>
      apply change_rename stepped
      · exact fun message enabled => enabled
      · intro message
        simp [rename, RpcMessage.rename, List.map_set]
  | inspect index =>
      apply change_rename stepped
      · exact fun message enabled => enabled
      · intro message
        simp [rename, RpcMessage.rename, List.map_set]

/-! ## The names in use -/

/-- Every reply that the connection knows is below the bound. -/
structure RepliesBelow (bound : Nat) (state : RpcConnection) : Prop where
  messages :
    ∀ message ∈ state.messages,
      (∀ reply ∈ message.result, reply < bound) ∧
        ∀ reply ∈ message.callbacks, reply < bound
  delivering : ∀ delivery ∈ state.delivering, delivery.2 < bound

theorem RepliesBelow.mono {bound higher : Nat}
    (below : state.RepliesBelow bound) (grows : bound ≤ higher) :
    state.RepliesBelow higher where
  messages := by
    intro message member
    obtain ⟨results, callbacks⟩ := below.messages message member
    exact
      ⟨fun reply isResult =>
          Nat.lt_of_lt_of_le (results reply isResult) grows,
        fun reply called => Nat.lt_of_lt_of_le (callbacks reply called) grows⟩
  delivering := fun delivery waits =>
    Nat.lt_of_lt_of_le (below.delivering delivery waits) grows

theorem RepliesBelow.set {bound index : Nat} {before after : RpcMessage}
    (below : state.RepliesBelow bound)
    (found : state.messages[index]? = some before)
    (sameResult : after.result = before.result)
    (sameCallbacks : after.callbacks = before.callbacks) :
    ∀ message ∈ state.messages.set index after,
      (∀ reply ∈ message.result, reply < bound) ∧
        ∀ reply ∈ message.callbacks, reply < bound := by
  apply Threads.forall_mem_set below.messages
  rw [sameResult, sameCallbacks]
  exact below.messages before (List.mem_of_getElem? found)

theorem RepliesBelow.of_moved {bound : Nat}
    (below : state.RepliesBelow bound) (moved : Moved state label next)
    (named :
      ∀ sequence reply, label = .takeReply sequence reply →
        reply < bound) :
    next.RepliesBelow bound := by
  cases moved with
  | send kind sequence timeout unlocked =>
      refine ⟨Threads.forall_mem_concat below.messages ?_, below.delivering⟩
      simp
  | sent index message found sending =>
      exact ⟨below.set found rfl rfl, below.delivering⟩
  | failSend index message found unlocked =>
      exact ⟨below.set found rfl rfl, below.delivering⟩
  | unsolicited sequence reply unlocked absent => exact below
  | takeReply sequence reply index message unlocked entry found =>
      refine ⟨below.set found rfl rfl, ?_⟩
      intro delivery waits
      rcases List.mem_append.mp waits with earlier | latest
      · exact below.delivering delivery earlier
      · rw [List.mem_singleton.mp latest]
        exact named sequence reply rfl
  | deliver position index reply message present found =>
      have named := below.delivering _ (List.mem_of_getElem? present)
      obtain ⟨results, callbacks⟩ :=
        below.messages message (List.mem_of_getElem? found)
      refine ⟨Threads.forall_mem_set below.messages ?_, ?_⟩
      · rw [RpcMessage.callReturn]
        split
        · refine ⟨results, ?_⟩
          intro other called
          rcases List.mem_append.mp called with earlier | latest
          · exact callbacks other earlier
          · rw [List.mem_singleton.mp latest]
            exact named
        · refine ⟨?_, callbacks⟩
          intro other isResult
          rw [← Option.some.inj isResult]
          exact named
      · intro delivery waits
        exact below.delivering delivery (List.mem_of_mem_eraseIdx waits)
  | beginDisconnect unlocked => exact ⟨below.messages, below.delivering⟩
  | fail index message found locked entry notYet =>
      exact ⟨below.set found rfl rfl, below.delivering⟩
  | endDisconnect locked allFailed =>
      exact ⟨below.messages, below.delivering⟩
  | wait index message found =>
      exact ⟨below.set found rfl rfl, below.delivering⟩
  | wake index message found =>
      exact ⟨below.set found rfl rfl, below.delivering⟩
  | inspect index message found =>
      exact ⟨below.set found rfl rfl, below.delivering⟩

/-- Only the names in use matter. -/
theorem rename_congr {bound : Nat} {others : Nat → Nat}
    (below : state.RepliesBelow bound)
    (agree : ∀ reply, reply < bound → names reply = others reply) :
    state.rename names = state.rename others := by
  have messages :
      state.messages.map (RpcMessage.rename names) =
        state.messages.map (RpcMessage.rename others) := by
    apply List.map_congr_left
    intro message member
    obtain ⟨results, callbacks⟩ := below.messages message member
    have sameResult : message.result.map names = message.result.map others :=
      Option.map_congr fun reply isResult =>
        agree reply (results reply isResult)
    have sameCallbacks :
        message.callbacks.map names = message.callbacks.map others :=
      List.map_congr_left fun reply called =>
        agree reply (callbacks reply called)
    rw [RpcMessage.rename, RpcMessage.rename, sameResult, sameCallbacks]
  have delivering :
      (state.delivering.map fun delivery =>
          (delivery.1, names delivery.2)) =
        state.delivering.map fun delivery =>
          (delivery.1, others delivery.2) := by
    apply List.map_congr_left
    intro delivery waits
    rw [agree delivery.2 (below.delivering delivery waits)]
  rw [rename, rename, messages, delivering]

end RpcConnection

end LocationServer

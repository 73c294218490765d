import LocationServer.Concurrency.QueueDelivery

/-!
# The end of the server (`server.cpp`, `mq.cpp`, `sync.cpp`)

A message goes from the reader through `_dcs`, a decoder and `_locs` to the
tables; only the `check` calls of the timer thread write what is in `_locs`.
`shutdown` stops the timer thread, `exec` waits for it, stops the HTTP service
and closes the message queue, and then it returns: nothing writes the records
that the decoders enqueue after the last `check`, and `DBSyncer::close`, which
would, is called nowhere.

A message is the number of its fetch, and stands for the record that `parseMsg`
makes of it; `parses` tells whether it makes one.  `dbsync` is enabled and no
database operation raises.
-/

namespace LocationServer

open StepSystem

/-- The timer thread: between two calls of `salfCheck`, in the call before
`_mq.check` and after it, in the loop of `sync2db`, and out of `run`. -/
inductive TimerPc where
  | idle
  | started
  | checked
  | syncing (batch : List Nat)
  | ended
  deriving DecidableEq, Repr

/-- The messages that `sync2db` still has to write. -/
def TimerPc.batch : TimerPc → List Nat
  | .syncing batch => batch
  | _ => []

/-- `exec`: waiting for the timer thread, closing the queue, done. -/
inductive ExecPc where
  | joining
  | closing
  | closed
  | returned
  deriving DecidableEq, Repr

structure ServerState where
  mq : MqState := {}
  timer : TimerPc := .idle
  exec : ExecPc := .joining
  stopping : Bool := false
  /-- The messages that `readThread` has acknowledged. -/
  acknowledged : List Nat := []
  locs : List Nat := []
  /-- The messages whose records `sync2db` has written. -/
  written : List Nat := []
  deriving DecidableEq, Repr

inductive ServerLabel where
  | thread (label : MqLabel)
  | acknowledge (index : Nat)
  | expire
  | mqCheck (outcome : OpenOutcome)
  | swap
  | write
  | rearm
  | shutdown
  | endTimer
  | beginClose
  | endClose
  | exit
  deriving DecidableEq, Repr

/-- The steps of the readers, the decoders and the broker. -/
def MqLabel.ofThread : MqLabel → Bool
  | .open _ | .check _ | .beginClose | .endClose => false
  | _ => true

namespace ServerState

/-- A reader acknowledges before it pushes; `parseMsg` decides whether a
message is handed over. -/
def Allows (parses : Nat → Bool) (state : ServerState) : MqLabel → Prop
  | .push index => ∀ message ∈ state.mq.readBy index,
      message ∈ state.acknowledged
  | .failAcknowledge index => ∀ message ∈ state.mq.readBy index,
      message ∉ state.acknowledged
  | .hand index parsed => ∀ message ∈ state.mq.decodedBy index,
      parsed = parses message
  | .raise index parsed => ∀ message ∈ state.mq.decodedBy index,
      parsed = true → parses message = true
  | label => label.ofThread = true

instance (parses : Nat → Bool) (state : ServerState) :
    DecidablePred (state.Allows parses)
  | .open _ => inferInstanceAs (Decidable (_ = _))
  | .check _ => inferInstanceAs (Decidable (_ = _))
  | .lose => inferInstanceAs (Decidable (_ = _))
  | .beginClose => inferInstanceAs (Decidable (_ = _))
  | .endClose => inferInstanceAs (Decidable (_ = _))
  | .fetch _ => inferInstanceAs (Decidable (_ = _))
  | .failFetch _ => inferInstanceAs (Decidable (_ = _))
  | .failAcknowledge _ => inferInstanceAs (Decidable (∀ message ∈ _, _))
  | .push _ => inferInstanceAs (Decidable (∀ message ∈ _, _))
  | .endRead _ => inferInstanceAs (Decidable (_ = _))
  | .take _ => inferInstanceAs (Decidable (_ = _))
  | .hand _ _ => inferInstanceAs (Decidable (∀ message ∈ _, _))
  | .raise _ _ => inferInstanceAs (Decidable (∀ message ∈ _, _))
  | .interrupt _ => inferInstanceAs (Decidable (_ = _))

def step (parses : Nat → Bool) (state : ServerState) :
    ServerLabel → Option ServerState
  | .thread label =>
      if state.Allows parses label then
        (state.mq.step label).map fun mq =>
          { state with mq, locs := state.locs ++ state.mq.passes label }
      else none
  | .acknowledge index =>
      (state.mq.readBy index).bind fun message =>
        if message ∈ state.acknowledged then none
        else
          some
            { state with
              acknowledged := state.acknowledged ++ [message] }
  | .expire =>
      if state.stopping = false ∧ state.timer = .idle then
        some { state with timer := .started }
      else none
  | .mqCheck outcome =>
      if state.timer = .started then
        (state.mq.step (.check outcome)).map fun mq =>
          { state with mq, timer := .checked }
      else none
  | .swap =>
      if state.timer = .checked then
        some { state with timer := .syncing state.locs, locs := [] }
      else none
  | .write =>
      match state.timer with
      | .syncing (message :: rest) =>
          some
            { state with
              timer := .syncing rest
              written := state.written ++ [message] }
      | _ => none
  | .rearm =>
      if state.timer = .syncing [] then some { state with timer := .idle }
      else none
  | .shutdown => some { state with stopping := true }
  | .endTimer =>
      if state.stopping = true ∧ state.timer = .idle then
        some { state with timer := .ended }
      else none
  | .beginClose =>
      if state.exec = .joining ∧ state.timer = .ended then
        (state.mq.step .beginClose).map fun mq =>
          { state with
            mq
            exec := if mq.closing then .closing else .closed }
      else none
  | .endClose =>
      if state.exec = .closing then
        (state.mq.step .endClose).map fun mq =>
          { state with mq, exec := .closed }
      else none
  | .exit =>
      if state.exec = .closed then some { state with exec := .returned }
      else none

/-- The server as `init` leaves it, which has opened the queue once. -/
def start (outcome : OpenOutcome) : ServerState where
  mq := ({} : MqState).openMq outcome

/-- Every acknowledged message that parses has been written. -/
def NothingLost (parses : Nat → Bool) (state : ServerState) : Prop :=
  ∀ message ∈ state.acknowledged, parses message = true →
    message ∈ state.written

/-- When the timer thread ends, the acknowledged messages that parse have been
handed over and none of them is in `_locs`; later no such message is
acknowledged. -/
def Drained (parses : Nat → Bool) (state : ServerState) :
    ServerLabel → Prop
  | .endTimer =>
      state.locs = [] ∧
        ∀ message ∈ state.acknowledged, parses message = true →
          message ∈ state.mq.handed
  | .acknowledge index =>
      state.timer = .ended →
        ∀ message ∈ state.mq.readBy index, parses message = false
  | _ => True

instance (parses : Nat → Bool) (state : ServerState) :
    DecidablePred (state.Drained parses)
  | .thread _ => inferInstanceAs (Decidable True)
  | .acknowledge _ => inferInstanceAs (Decidable (_ → ∀ message ∈ _, _))
  | .expire => inferInstanceAs (Decidable True)
  | .mqCheck _ => inferInstanceAs (Decidable True)
  | .swap => inferInstanceAs (Decidable True)
  | .write => inferInstanceAs (Decidable True)
  | .rearm => inferInstanceAs (Decidable True)
  | .shutdown => inferInstanceAs (Decidable True)
  | .endTimer => inferInstanceAs (Decidable (_ ∧ ∀ message ∈ _, _))
  | .beginClose => inferInstanceAs (Decidable True)
  | .endClose => inferInstanceAs (Decidable True)
  | .exit => inferInstanceAs (Decidable True)

end ServerState

/-! ## What a step of the server can do -/

namespace ServerState

inductive Moved (parses : Nat → Bool) (state : ServerState) :
    ServerLabel → ServerState → Prop where
  | thread (label : MqLabel) (mq : MqState)
      (allowed : state.Allows parses label)
      (moved : state.mq.step label = some mq) :
      Moved parses state (.thread label)
        { state with mq, locs := state.locs ++ state.mq.passes label }
  | acknowledge (index message : Nat)
      (reads : state.mq.readBy index = some message) :
      Moved parses state (.acknowledge index)
        { state with acknowledged := state.acknowledged ++ [message] }
  | expire (idle : state.timer = .idle) :
      Moved parses state .expire { state with timer := .started }
  | mqCheck (outcome : OpenOutcome) (mq : MqState)
      (started : state.timer = .started)
      (moved : state.mq.step (.check outcome) = some mq) :
      Moved parses state (.mqCheck outcome)
        { state with mq, timer := .checked }
  | swap (checked : state.timer = .checked) :
      Moved parses state .swap
        { state with timer := .syncing state.locs, locs := [] }
  | write (message : Nat) (rest : List Nat)
      (syncing : state.timer = .syncing (message :: rest)) :
      Moved parses state .write
        { state with
          timer := .syncing rest
          written := state.written ++ [message] }
  | rearm (done : state.timer = .syncing []) :
      Moved parses state .rearm { state with timer := .idle }
  | shutdown : Moved parses state .shutdown { state with stopping := true }
  | endTimer (idle : state.timer = .idle) :
      Moved parses state .endTimer { state with timer := .ended }
  | beginClose (mq : MqState) (exec : ExecPc)
      (ended : state.timer = .ended)
      (moved : state.mq.step .beginClose = some mq) :
      Moved parses state .beginClose { state with mq, exec }
  | endClose (mq : MqState) (closing : state.exec = .closing)
      (moved : state.mq.step .endClose = some mq) :
      Moved parses state .endClose { state with mq, exec := .closed }
  | exit (closed : state.exec = .closed) :
      Moved parses state .exit { state with exec := .returned }

section Step

variable {parses : Nat → Bool} {state next : ServerState}
variable {label : ServerLabel}

theorem moved_of_step (stepped : state.step parses label = some next) :
    Moved parses state label next := by
  cases label with
  | thread label =>
      simp only [step, Option.ite_none_right_eq_some] at stepped
      obtain ⟨allowed, moves⟩ := stepped
      obtain ⟨mq, moved, isNext⟩ := Option.map_eq_some_iff.mp moves
      rw [← isNext]
      exact Moved.thread label mq allowed moved
  | acknowledge index =>
      simp only [step] at stepped
      obtain ⟨message, reads, acknowledges⟩ :=
        Option.bind_eq_some_iff.mp stepped
      simp only [Option.ite_none_left_eq_some,
        Option.some.injEq] at acknowledges
      rw [← acknowledges.2]
      exact Moved.acknowledge index message reads
  | expire =>
      simp only [step, Option.ite_none_right_eq_some,
        Option.some.injEq] at stepped
      rw [← stepped.2]
      exact Moved.expire stepped.1.2
  | mqCheck outcome =>
      simp only [step, Option.ite_none_right_eq_some] at stepped
      obtain ⟨started, moves⟩ := stepped
      obtain ⟨mq, moved, isNext⟩ := Option.map_eq_some_iff.mp moves
      rw [← isNext]
      exact Moved.mqCheck outcome mq started moved
  | swap =>
      simp only [step, Option.ite_none_right_eq_some,
        Option.some.injEq] at stepped
      rw [← stepped.2]
      exact Moved.swap stepped.1
  | write =>
      simp only [step] at stepped
      split at stepped
      · rename_i message rest syncing
        rw [← Option.some.inj stepped]
        exact Moved.write message rest syncing
      · cases stepped
  | rearm =>
      simp only [step, Option.ite_none_right_eq_some,
        Option.some.injEq] at stepped
      rw [← stepped.2]
      exact Moved.rearm stepped.1
  | shutdown =>
      rw [← Option.some.inj stepped]
      exact Moved.shutdown
  | endTimer =>
      simp only [step, Option.ite_none_right_eq_some,
        Option.some.injEq] at stepped
      rw [← stepped.2]
      exact Moved.endTimer stepped.1.2
  | beginClose =>
      simp only [step, Option.ite_none_right_eq_some] at stepped
      obtain ⟨joined, moves⟩ := stepped
      obtain ⟨mq, moved, isNext⟩ := Option.map_eq_some_iff.mp moves
      rw [← isNext]
      exact Moved.beginClose mq _ joined.2 moved
  | endClose =>
      simp only [step, Option.ite_none_right_eq_some] at stepped
      obtain ⟨closing, moves⟩ := stepped
      obtain ⟨mq, moved, isNext⟩ := Option.map_eq_some_iff.mp moves
      rw [← isNext]
      exact Moved.endClose mq closing moved
  | exit =>
      simp only [step, Option.ite_none_right_eq_some,
        Option.some.injEq] at stepped
      rw [← stepped.2]
      exact Moved.exit stepped.1

/-! ## What holds in every state -/

/-- The records handed over are written, in the hands of `sync2db` or in
`_locs`, and every message behind a reader has been acknowledged. -/
structure Sound (parses : Nat → Bool) (state : ServerState) : Prop where
  accounted :
    state.mq.handed = state.written ++ (state.timer.batch ++ state.locs)
  distinct : state.mq.Distinct
  acknowledged : ∀ message ∈ state.mq.behind, message ∈ state.acknowledged
  parsed : ∀ message ∈ state.mq.handed, parses message = true
  joined : state.exec ≠ .joining → state.timer = .ended

theorem acknowledged_of_pushes {label : MqLabel}
    (allowed : state.Allows parses label) :
    ∀ message ∈ state.mq.pushes label, message ∈ state.acknowledged := by
  intro message member
  cases label with
  | push index => exact allowed message (Option.mem_toList.mp member)
  | _ => cases member

theorem parses_of_passes {label : MqLabel}
    (allowed : state.Allows parses label) :
    ∀ message ∈ state.mq.passes label, parses message = true := by
  intro message member
  cases label with
  | hand index parsed =>
      cases parsed with
      | false => cases member
      | true => exact (allowed message (Option.mem_toList.mp member)).symm
  | raise index parsed =>
      cases parsed with
      | false => cases member
      | true => exact allowed message (Option.mem_toList.mp member) rfl
  | _ => cases member

/-- A step of the queue that is not one of its readers or decoders. -/
theorem Sound.control (sound : state.Sound parses) {label : MqLabel}
    {mq : MqState} (moved : state.mq.step label = some mq)
    (passesNothing : state.mq.passes label = [])
    (pushesNothing : state.mq.pushes label = []) :
    Sound parses { state with mq } := by
  have delivers := MqState.delivers_of_step moved
  have sameHanded : mq.handed = state.mq.handed := by
    rw [delivers.handed, passesNothing, List.append_nil]
  refine
    ⟨sameHanded.trans sound.accounted,
      MqState.distinct_of_step sound.distinct moved, ?_, ?_, sound.joined⟩
  · intro message member
    rcases delivers.mem_behind member with before | pushed
    · exact sound.acknowledged message before
    · rw [pushesNothing] at pushed
      cases pushed
  · intro message member
    exact sound.parsed message (sameHanded ▸ member)

theorem sound_of_moved (sound : state.Sound parses)
    (moved : Moved parses state label next) : next.Sound parses := by
  cases moved with
  | thread label mq allowed moved =>
      have delivers := MqState.delivers_of_step moved
      refine
        ⟨?_, MqState.distinct_of_step sound.distinct moved, ?_, ?_,
          sound.joined⟩
      · dsimp only
        rw [delivers.handed, sound.accounted, List.append_assoc,
          List.append_assoc]
      · intro message member
        rcases delivers.mem_behind member with before | pushed
        · exact sound.acknowledged message before
        · exact acknowledged_of_pushes allowed message pushed
      · intro message member
        dsimp only at member
        rw [delivers.handed, List.mem_append] at member
        rcases member with before | passed
        · exact sound.parsed message before
        · exact parses_of_passes allowed message passed
  | acknowledge index message reads =>
      refine
        ⟨sound.accounted, sound.distinct, ?_, sound.parsed, sound.joined⟩
      intro other member
      exact List.mem_append_left _ (sound.acknowledged other member)
  | expire idle =>
      obtain ⟨accounted, distinct, acknowledged, parsed, joined⟩ := sound
      rw [idle] at accounted joined
      refine ⟨accounted, distinct, acknowledged, parsed, ?_⟩
      intro left
      cases joined left
  | mqCheck outcome mq started moved =>
      obtain ⟨accounted, distinct, acknowledged, parsed, joined⟩ :=
        sound.control moved rfl rfl
      dsimp only at accounted joined
      rw [started] at accounted joined
      refine ⟨accounted, distinct, acknowledged, parsed, ?_⟩
      intro left
      cases joined left
  | swap checked =>
      obtain ⟨accounted, distinct, acknowledged, parsed, joined⟩ := sound
      rw [checked] at accounted joined
      refine ⟨?_, distinct, acknowledged, parsed, ?_⟩
      · rw [accounted]
        simp [TimerPc.batch]
      · intro left
        cases joined left
  | write message rest syncing =>
      obtain ⟨accounted, distinct, acknowledged, parsed, joined⟩ := sound
      rw [syncing] at accounted joined
      refine ⟨?_, distinct, acknowledged, parsed, ?_⟩
      · rw [accounted]
        simp [TimerPc.batch]
      · intro left
        cases joined left
  | rearm done =>
      obtain ⟨accounted, distinct, acknowledged, parsed, joined⟩ := sound
      rw [done] at accounted joined
      refine ⟨accounted, distinct, acknowledged, parsed, ?_⟩
      intro left
      cases joined left
  | shutdown =>
      exact
        ⟨sound.accounted, sound.distinct, sound.acknowledged, sound.parsed,
          sound.joined⟩
  | endTimer idle =>
      obtain ⟨accounted, distinct, acknowledged, parsed, -⟩ := sound
      rw [idle] at accounted
      exact ⟨accounted, distinct, acknowledged, parsed, fun _ => rfl⟩
  | beginClose mq exec ended moved =>
      obtain ⟨accounted, distinct, acknowledged, parsed, -⟩ :=
        sound.control moved rfl rfl
      exact ⟨accounted, distinct, acknowledged, parsed, fun _ => ended⟩
  | endClose mq closing moved =>
      obtain ⟨accounted, distinct, acknowledged, parsed, -⟩ :=
        sound.control moved rfl rfl
      refine ⟨accounted, distinct, acknowledged, parsed, ?_⟩
      intro _
      exact sound.joined (by simp [closing])
  | exit closed =>
      refine
        ⟨sound.accounted, sound.distinct, sound.acknowledged, sound.parsed,
          ?_⟩
      intro _
      exact sound.joined (by simp [closed])

theorem sound_start (outcome : OpenOutcome) :
    (start outcome).Sound parses := by
  have nothing : (start outcome).mq.flow = [] := by
    cases outcome <;> rfl
  have nothingBehind : (start outcome).mq.behind = [] := by
    cases outcome <;> rfl
  have nothingHanded : (start outcome).mq.handed = [] := by
    cases outcome <;> rfl
  refine ⟨nothingHanded, ?_, ?_, ?_, ?_⟩
  · intro message
    simp [nothing]
  · simp [nothingBehind]
  · simp [nothingHanded]
  · intro left
    exact absurd rfl left

/-! ## What the end of the timer thread decides -/

/-- After the timer thread has ended, nothing is lost. -/
def SafeAtEnd (parses : Nat → Bool) (state : ServerState) : Prop :=
  state.timer = .ended → state.NothingLost parses

/-- The timer thread ends with everything written exactly when nothing that
parses is left in the pipeline. -/
theorem nothingLost_iff_of_idle (sound : state.Sound parses)
    (idle : state.timer = .idle) :
    state.NothingLost parses ↔
      state.locs = [] ∧
        ∀ message ∈ state.acknowledged, parses message = true →
          message ∈ state.mq.handed := by
  have accounted := sound.accounted
  rw [idle] at accounted
  constructor
  · intro nothingLost
    refine ⟨?_, ?_⟩
    · apply List.eq_nil_iff_forall_not_mem.mpr
      intro message pending
      have inHanded : message ∈ state.mq.handed := by
        rw [accounted]
        exact List.mem_append_right _ pending
      have isWritten :=
        nothingLost message
          (sound.acknowledged message
            (List.mem_append_left _ (List.mem_append_left _ inHanded)))
          (sound.parsed message inHanded)
      -- the message would be in two places
      have once := sound.distinct message
      rw [MqState.count_flow, accounted] at once
      have here := List.count_pos_iff.mpr pending
      have there := List.count_pos_iff.mpr isWritten
      simp only [TimerPc.batch, List.nil_append,
        List.count_append] at once
      split at once <;> omega
    · intro message isAcknowledged isParsed
      rw [accounted]
      exact
        List.mem_append_left _ (nothingLost message isAcknowledged isParsed)
  · intro drained message isAcknowledged isParsed
    have inHanded := drained.2 message isAcknowledged isParsed
    rw [accounted, drained.1] at inHanded
    simpa [TimerPc.batch] using inHanded

/-- A message that is acknowledged after the timer thread has ended is not
written any more. -/
theorem nothingLost_acknowledge_iff (sound : state.Sound parses)
    (nothingLost : state.NothingLost parses) {index message : Nat}
    (reads : state.mq.readBy index = some message) :
    NothingLost parses
        { state with acknowledged := state.acknowledged ++ [message] } ↔
      parses message = false := by
  have unwritten : message ∉ state.written := by
    intro isWritten
    have once := sound.distinct message
    rw [MqState.count_flow, sound.accounted, List.count_append] at once
    have here :=
      List.count_pos_iff.mpr (MqState.mem_flow_of_readBy reads)
    have there := List.count_pos_iff.mpr isWritten
    split at once <;> omega
  constructor
  · intro allWritten
    apply Bool.eq_false_iff.mpr
    intro isParsed
    exact unwritten (allWritten message (by simp) isParsed)
  · intro rejected other member isParsed
    rcases List.mem_append.mp member with before | new
    · exact nothingLost other before isParsed
    · rw [List.mem_singleton.mp new, rejected] at isParsed
      cases isParsed

theorem safeAtEnd_iff_of_moved (sound : state.Sound parses)
    (safe : state.SafeAtEnd parses)
    (moved : Moved parses state label next) :
    next.SafeAtEnd parses ↔ state.Drained parses label := by
  cases moved with
  | thread label mq allowed moved => exact iff_of_true safe trivial
  | acknowledge index message reads =>
      have isMessage :
          (∀ other ∈ state.mq.readBy index, parses other = false) ↔
            parses message = false := by
        simp [reads]
      rw [SafeAtEnd, Drained, isMessage]
      apply forall_congr'
      intro ended
      exact nothingLost_acknowledge_iff sound (safe ended) reads
  | expire idle =>
      exact iff_of_true (fun ended => by cases ended) trivial
  | mqCheck outcome mq started moved =>
      exact iff_of_true (fun ended => by cases ended) trivial
  | swap checked =>
      exact iff_of_true (fun ended => by cases ended) trivial
  | write message rest syncing =>
      exact iff_of_true (fun ended => by cases ended) trivial
  | rearm done =>
      exact iff_of_true (fun ended => by cases ended) trivial
  | shutdown => exact iff_of_true safe trivial
  | endTimer idle =>
      rw [SafeAtEnd, Drained, ← nothingLost_iff_of_idle sound idle]
      exact ⟨fun safe => safe rfl, fun nothingLost _ => nothingLost⟩
  | beginClose mq exec ended moved => exact iff_of_true safe trivial
  | endClose mq closing moved => exact iff_of_true safe trivial
  | exit closed => exact iff_of_true safe trivial

/-- The timer thread has ended, nothing more has been written and no
acknowledgement has been taken back since `state`. -/
def Frozen (state later : ServerState) : Prop :=
  later.timer = .ended ∧ later.written = state.written ∧
    ∀ message ∈ state.acknowledged, message ∈ later.acknowledged

theorem frozen_of_moved (ended : state.timer = .ended)
    (moved : Moved parses state label next) : state.Frozen next := by
  cases moved with
  | acknowledge index message reads =>
      exact ⟨ended, rfl, fun _ => List.mem_append_left _⟩
  | expire idle => cases ended.symm.trans idle
  | mqCheck outcome mq started moved => cases ended.symm.trans started
  | swap checked => cases ended.symm.trans checked
  | write message rest syncing => cases ended.symm.trans syncing
  | rearm done => cases ended.symm.trans done
  | endTimer idle => cases ended.symm.trans idle
  | thread label mq allowed moved => exact ⟨ended, rfl, fun _ => id⟩
  | shutdown => exact ⟨ended, rfl, fun _ => id⟩
  | beginClose mq exec ended moved => exact ⟨ended, rfl, fun _ => id⟩
  | endClose mq closing moved => exact ⟨ended, rfl, fun _ => id⟩
  | exit closed => exact ⟨ended, rfl, fun _ => id⟩

end Step

/-! ## Runs -/

theorem nothingLost_of_later {parses : Nat → Bool}
    {state final : ServerState} {labels : List ServerLabel}
    (ended : state.timer = .ended)
    (execution : run (step parses) state labels = some final)
    (nothingLost : final.NothingLost parses) :
    state.NothingLost parses := by
  have frozen : state.Frozen final := by
    refine invariant_of_run ?_ ⟨ended, rfl, fun _ => id⟩ execution
    intro middle label next sofar stepped
    obtain ⟨endedThere, sameWritten, grown⟩ := sofar
    obtain ⟨endedNext, sameNext, grownNext⟩ :=
      frozen_of_moved endedThere (moved_of_step stepped)
    exact
      ⟨endedNext, sameNext.trans sameWritten,
        fun message member => grownNext message (grown message member)⟩
  intro message member isParsed
  rw [← frozen.2.1]
  exact nothingLost message (frozen.2.2 message member) isParsed

/-- A run of the server that returns from `exec` has written every
acknowledged message that parses exactly when the pipeline was drained before
the timer thread ended. -/
theorem nothingLost_iff_drained {parses : Nat → Bool}
    {outcome : OpenOutcome} {labels : List ServerLabel}
    {final : ServerState}
    (execution : run (step parses) (start outcome) labels = some final)
    (returned : final.exec = .returned) :
    final.NothingLost parses ↔
      Along (step parses) (Drained parses) (start outcome) labels := by
  have sound : final.Sound parses :=
    invariant_of_run
      (fun _ _ _ sound stepped => sound_of_moved sound (moved_of_step stepped))
      (sound_start outcome) execution
  have ended : final.timer = .ended := sound.joined (by simp [returned])
  have decided :
      Always (step parses) (SafeAtEnd parses) (start outcome) labels ↔
        Along (step parses) (Drained parses) (start outcome) labels :=
    always_iff_along
      (fun _ _ _ sound stepped => sound_of_moved sound (moved_of_step stepped))
      (fun _ _ _ sound safe stepped =>
        safeAtEnd_iff_of_moved sound safe (moved_of_step stepped))
      (sound_start outcome) (fun atStart => by cases atStart) execution
  rw [← decided]
  constructor
  · intro nothingLost earlier later middle split before endedThere
    rw [split, run_append_eq_some_iff] at execution
    obtain ⟨other, sameRun, continued⟩ := execution
    rw [before] at sameRun
    rw [← Option.some.inj sameRun] at continued
    exact nothingLost_of_later endedThere continued nothingLost
  · intro always
    exact always labels [] final (List.append_nil _).symm execution ended

/-- A message that is written by the last check before `shutdown`. -/
theorem nothingLost_shutdown_when_idle :
    (outcome (step fun _ => true) (start .succeeds)
      [.thread (.fetch 0), .acknowledge 0, .thread (.push 0),
        .thread (.take 0), .thread (.hand 0 true), .expire,
        .mqCheck .succeeds, .swap, .write, .rearm, .shutdown, .endTimer,
        .beginClose, .thread (.failFetch 0), .thread (.endRead 0),
        .thread (.interrupt 0), .endClose, .exit]
      (by decide)).NothingLost fun _ => true :=
  (nothingLost_iff_drained
    (@run_eq_outcome ServerState ServerLabel (step fun _ => true)
      (start .succeeds)
      [.thread (.fetch 0), .acknowledge 0, .thread (.push 0),
        .thread (.take 0), .thread (.hand 0 true), .expire,
        .mqCheck .succeeds, .swap, .write, .rearm, .shutdown, .endTimer,
        .beginClose, .thread (.failFetch 0), .thread (.endRead 0),
        .thread (.interrupt 0), .endClose, .exit]
      (by decide))
    (by decide)).mpr (by decide)

/-- A message that is handed over between the last check and `shutdown`. -/
theorem shutdown_loses_enqueued_message :
    (outcome (step fun _ => true) (start .succeeds)
        [.thread (.fetch 0), .acknowledge 0, .thread (.push 0),
          .thread (.take 0), .thread (.hand 0 true), .shutdown, .endTimer,
          .beginClose, .thread (.failFetch 0), .thread (.endRead 0),
          .thread (.interrupt 0), .endClose, .exit]
        (by decide)).exec = .returned ∧
      ¬ (outcome (step fun _ => true) (start .succeeds)
          [.thread (.fetch 0), .acknowledge 0, .thread (.push 0),
            .thread (.take 0), .thread (.hand 0 true), .shutdown,
            .endTimer, .beginClose, .thread (.failFetch 0),
            .thread (.endRead 0), .thread (.interrupt 0), .endClose, .exit]
          (by decide)).NothingLost fun _ => true := by
  refine ⟨by decide, ?_⟩
  intro nothingLost
  have isWritten := nothingLost 0 (by decide) rfl
  exact absurd isWritten (by decide)

end ServerState

end LocationServer

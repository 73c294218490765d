import LocationServer.Concurrency.QueueLifecycle

/-!
# What the message queue delivers

Each step of the queue's threads hands at most one message over, the one that
its decoder holds, and brings at most one message behind the readers, the one
that its reader holds.  Whatever creates threads, no message is in two places.
-/

namespace LocationServer

namespace MqState

/-- The message that a reader has fetched and not pushed. -/
def readBy (mq : MqState) (index : Nat) : Option Nat :=
  mq.readers[index]?.bind ReaderPc.message?

/-- The message that a decoder has taken. -/
def decodedBy (mq : MqState) (index : Nat) : Option Nat :=
  mq.decoders[index]?.bind Decoder.message?

/-- What a step of the queue's threads appends to `_dcs`. -/
def pushes (mq : MqState) : MqLabel → List Nat
  | .push index => (mq.readBy index).toList
  | _ => []

/-- What a step of the queue's threads passes to `LocServer::update`. -/
def passes (mq : MqState) : MqLabel → List Nat
  | .hand index parsed =>
      if parsed then (mq.decodedBy index).toList else []
  | .raise index parsed =>
      if parsed then (mq.decodedBy index).toList else []
  | _ => []

/-- The messages that have passed a reader. -/
def behind (mq : MqState) : List Nat :=
  mq.handed ++ mq.decoders.filterMap Decoder.message? ++ mq.dcs

/-- No message is in two places, and none has a number to come. -/
def Distinct (mq : MqState) : Prop :=
  ∀ message,
    mq.flow.count message ≤ if message < mq.fetched then 1 else 0

theorem flow_eq (mq : MqState) :
    mq.flow = mq.behind ++ mq.readers.filterMap ReaderPc.message? :=
  (List.append_assoc _ _ _).symm

theorem count_flow (mq : MqState) (message : Nat) :
    mq.flow.count message =
      mq.handed.count message +
        (mq.decoders.filterMap Decoder.message?).count message +
        mq.dcs.count message +
        (mq.readers.filterMap ReaderPc.message?).count message := by
  rw [flow_eq, behind, List.count_append, List.count_append,
    List.count_append]

theorem mem_flow_of_readBy {mq : MqState} {index message : Nat}
    (reads : mq.readBy index = some message) :
    message ∈ mq.readers.filterMap ReaderPc.message? := by
  obtain ⟨pc, found, holds⟩ := Option.bind_eq_some_iff.mp reads
  exact List.mem_filterMap.mpr ⟨pc, List.mem_of_getElem? found, holds⟩

section Step

variable {mq next : MqState}

theorem count_readers_set {index : Nat} {before : ReaderPc}
    (present : mq.readers[index]? = some before) (after : ReaderPc)
    (message : Nat) :
    ((mq.readers.set index after).filterMap ReaderPc.message?).count
          message +
        before.message?.toList.count message =
      (mq.readers.filterMap ReaderPc.message?).count message +
        after.message?.toList.count message :=
  Threads.count_filterMap_set present message

theorem count_decoders_set {index : Nat} {before : Decoder}
    (present : mq.decoders[index]? = some before) (after : Decoder)
    (message : Nat) :
    ((mq.decoders.set index after).filterMap Decoder.message?).count
          message +
        before.message?.toList.count message =
      (mq.decoders.filterMap Decoder.message?).count message +
        after.message?.toList.count message :=
  Threads.count_filterMap_set present message

theorem distinct_of_moved (distinct : mq.Distinct)
    (moved : Moved mq next) : next.Distinct := by
  intro message
  have bounded := distinct message
  rw [count_flow] at bounded ⊢
  cases moved with
  | control conn => exact bounded
  | beginClose index decoder present =>
      have counted :=
        count_decoders_set present { decoder with interrupted := true }
          message
      have same :
          Decoder.message? { decoder with interrupted := true } =
            decoder.message? := rfl
      rw [same] at counted
      dsimp only
      omega
  | endClose =>
      simp only [List.count_nil]
      omega
  | fetch index present =>
      have counted :=
        count_readers_set present (.holding mq.fetched) message
      simp only [ReaderPc.message?, Option.toList_none, List.count_nil,
        Option.toList_some, List.count_singleton, beq_iff_eq] at counted
      dsimp only
      split at counted <;> split at bounded <;> split <;> omega
  | leave index before present reads =>
      have counted :=
        count_readers_set present .leaving message
      simp only [ReaderPc.message?, Option.toList_none,
        List.count_nil] at counted
      dsimp only
      omega
  | endRead index present =>
      have counted :=
        count_readers_set present .ended message
      simp only [ReaderPc.message?, Option.toList_none,
        List.count_nil] at counted
      dsimp only
      omega
  | push index pushed present =>
      have counted :=
        count_readers_set present .fetch message
      simp only [ReaderPc.message?, Option.toList_none, List.count_nil,
        Option.toList_some] at counted
      dsimp only
      rw [List.count_append]
      omega
  | take index taken rest interrupted present queue =>
      have counted :=
        count_decoders_set present { pc := .holding taken, interrupted }
          message
      simp only [Decoder.message?, Option.toList_none, List.count_nil,
        Option.toList_some] at counted
      rw [queue, List.count_cons, ← List.count_singleton] at bounded
      dsimp only
      omega
  | hand index given parsed interrupted after present nothingAfter =>
      have counted :=
        count_decoders_set present { pc := after, interrupted }
          message
      rw [nothingAfter] at counted
      simp only [Decoder.message?, Option.toList_none, List.count_nil,
        Option.toList_some] at counted
      have handed :
          (mq.handOver given parsed).count message ≤
            mq.handed.count message + [given].count message := by
        cases parsed <;> simp [handOver, List.count_append]
      dsimp only
      omega
  | interrupt index present =>
      have counted :=
        count_decoders_set present { pc := .ended, interrupted := true }
          message
      simp only [Decoder.message?, Option.toList_none,
        List.count_nil] at counted
      dsimp only
      omega

theorem distinct_of_step {label : MqLabel} (distinct : mq.Distinct)
    (stepped : mq.step label = some next) : next.Distinct := by
  rcases moved_of_step stepped with ⟨-, isOpened⟩ | moved
  · intro message
    rw [isOpened, flow_opened]
    exact distinct message
  · exact distinct_of_moved distinct moved

theorem count_behind (mq : MqState) (message : Nat) :
    mq.behind.count message =
      mq.handed.count message +
        (mq.decoders.filterMap Decoder.message?).count message +
        mq.dcs.count message := by
  rw [behind, List.count_append, List.count_append]

/-- What a step hands over, and the messages that it brings behind the
readers. -/
structure Delivers (mq : MqState) (label : MqLabel) (next : MqState) :
    Prop where
  handed : next.handed = mq.handed ++ mq.passes label
  behind :
    ∀ message,
      next.behind.count message ≤
        mq.behind.count message + (mq.pushes label).count message

/-- A step that hands nothing over and adds nothing to `_dcs`. -/
theorem delivers_of_quiet {label : MqLabel}
    (passesNothing : mq.passes label = [])
    (sameHanded : next.handed = mq.handed)
    (sameTaken :
      next.decoders.filterMap Decoder.message? =
        mq.decoders.filterMap Decoder.message?)
    (fewerQueued : next.dcs.Sublist mq.dcs) : mq.Delivers label next := by
  refine ⟨?_, ?_⟩
  · rw [passesNothing, sameHanded, List.append_nil]
  · intro message
    have queued := fewerQueued.count_le message
    rw [count_behind, count_behind, sameHanded, sameTaken]
    omega

theorem delivers_openMq {outcome : OpenOutcome} {label : MqLabel}
    (passesNothing : mq.passes label = []) :
    mq.Delivers label (mq.openMq outcome) := by
  cases outcome with
  | succeeds =>
      refine delivers_of_quiet passesNothing rfl ?_ (List.Sublist.refl _)
      simp [openMq, opened, Decoder.message?]
  | notConstructed =>
      exact delivers_of_quiet passesNothing rfl rfl (List.Sublist.refl _)
  | raises =>
      exact delivers_of_quiet passesNothing rfl rfl (List.Sublist.refl _)

/-- A decoder hands the message that it holds over. -/
theorem delivers_handOver {index message : Nat}
    {parsed interrupted : Bool} {after : Decoder} {label : MqLabel}
    (present :
      mq.decoders[index]? = some { pc := .holding message, interrupted })
    (nothingAfter : after.message? = none)
    (passed :
      mq.passes label =
        if parsed then (mq.decodedBy index).toList else []) :
    mq.Delivers label
      { mq with
        decoders := mq.decoders.set index after
        handed := mq.handOver message parsed } := by
  have decodes : mq.decodedBy index = some message := by
    rw [decodedBy, present]
    rfl
  have handed :
      mq.handOver message parsed = mq.handed ++ mq.passes label := by
    rw [passed, decodes]
    cases parsed with
    | false => exact (List.append_nil _).symm
    | true => rfl
  refine ⟨handed, ?_⟩
  intro other
  have counted := count_decoders_set present after other
  have atMost :
      (mq.passes label).count other ≤ [message].count other := by
    rw [passed, decodes]
    cases parsed <;> simp
  rw [nothingAfter] at counted
  simp only [Decoder.message?, Option.toList_none, List.count_nil,
    Option.toList_some] at counted
  rw [count_behind, count_behind]
  dsimp only
  rw [handed, List.count_append]
  omega

theorem delivers_of_step {label : MqLabel}
    (stepped : mq.step label = some next) : mq.Delivers label next := by
  cases stepped_of_step stepped with
  | opens outcome _ => exact delivers_openMq rfl
  | checks outcome _ _ =>
      exact delivers_of_quiet rfl rfl rfl (List.Sublist.refl _)
  | reopens outcome _ _ => exact delivers_openMq rfl
  | loses _ => exact delivers_of_quiet rfl rfl rfl (List.Sublist.refl _)
  | closesNothing _ _ =>
      exact delivers_of_quiet rfl rfl rfl (List.Sublist.refl _)
  | beginsClose index decoder _ present =>
      exact
        delivers_of_quiet rfl rfl (Threads.filterMap_set_of_same present rfl)
          (List.Sublist.refl _)
  | endsClose _ =>
      exact delivers_of_quiet rfl rfl rfl (List.nil_sublist _)
  | fetches index _ =>
      exact delivers_of_quiet rfl rfl rfl (List.Sublist.refl _)
  | failsFetch index _ =>
      exact delivers_of_quiet rfl rfl rfl (List.Sublist.refl _)
  | failsAcknowledge index message _ =>
      exact delivers_of_quiet rfl rfl rfl (List.Sublist.refl _)
  | pushes index message present =>
      have reads : mq.readBy index = some message := by
        rw [readBy, present]
        rfl
      refine ⟨(List.append_nil _).symm, ?_⟩
      intro other
      rw [count_behind, count_behind, pushes, reads]
      dsimp only
      rw [List.count_append, Option.toList_some]
      omega
  | endsRead index _ =>
      exact delivers_of_quiet rfl rfl rfl (List.Sublist.refl _)
  | takes index message rest interrupted present queue =>
      refine ⟨(List.append_nil _).symm, ?_⟩
      intro other
      have counted :=
        count_decoders_set present { pc := .holding message, interrupted }
          other
      simp only [Decoder.message?, Option.toList_none, List.count_nil,
        Option.toList_some] at counted
      rw [count_behind, count_behind, queue, List.count_cons,
        ← List.count_singleton]
      dsimp only
      omega
  | hands index message parsed interrupted present =>
      exact delivers_handOver present rfl rfl
  | raises index message parsed interrupted present =>
      exact delivers_handOver present rfl rfl
  | interrupts index present =>
      exact
        delivers_of_quiet rfl rfl (Threads.filterMap_set_of_same present rfl)
          (List.Sublist.refl _)

/-- A message behind the readers is one that `push` brings or was there. -/
theorem Delivers.mem_behind {label : MqLabel}
    (delivers : mq.Delivers label next) {message : Nat}
    (member : message ∈ next.behind) :
    message ∈ mq.behind ∨ message ∈ mq.pushes label := by
  have counted := delivers.behind message
  rw [← List.count_pos_iff] at member
  rw [← List.count_pos_iff, ← List.count_pos_iff]
  omega

end Step

end MqState

end LocationServer

import LocationServer.Concurrency.QueueDelivery

/-!
# What the message queue keeps

A message is dropped when `acknowledge` raises behind it, when `close` empties
`_dcs`, and when its decoder ends with it.  In a run in which no message that
decodes is dropped so, the messages handed over and those on the way are the
fetched messages that decode, in the order of their fetches, however often the
connection is lost and opened again in between.
-/

namespace LocationServer

open StepSystem

namespace MqState

/-- The messages that have been fetched and not yet handed over, the oldest
first. -/
def onTheWay (mq : MqState) : List Nat :=
  mq.decoders.filterMap Decoder.message? ++
    (mq.dcs ++ mq.readers.filterMap ReaderPc.message?)

/-- A decoder hands a message over exactly when it decodes, unless the decoder
ends with it. -/
def Decodes (decodes : Nat → Bool) (mq : MqState) : MqLabel → Prop
  | .hand index parsed => ∀ message ∈ mq.decodedBy index,
      parsed = decodes message
  | .raise _ parsed => parsed = false
  | _ => True

instance (decodes : Nat → Bool) (mq : MqState) :
    DecidablePred (mq.Decodes decodes)
  | .open _ => inferInstanceAs (Decidable True)
  | .check _ => inferInstanceAs (Decidable True)
  | .lose => inferInstanceAs (Decidable True)
  | .beginClose => inferInstanceAs (Decidable True)
  | .endClose => inferInstanceAs (Decidable True)
  | .fetch _ => inferInstanceAs (Decidable True)
  | .failFetch _ => inferInstanceAs (Decidable True)
  | .failAcknowledge _ => inferInstanceAs (Decidable True)
  | .push _ => inferInstanceAs (Decidable True)
  | .endRead _ => inferInstanceAs (Decidable True)
  | .take _ => inferInstanceAs (Decidable True)
  | .hand _ _ => inferInstanceAs (Decidable (∀ message ∈ _, _))
  | .raise _ _ => inferInstanceAs (Decidable (_ = _))
  | .interrupt _ => inferInstanceAs (Decidable True)

/-- The step drops no message that decodes. -/
def DropsNothing (decodes : Nat → Bool) (mq : MqState) : MqLabel → Prop
  | .failAcknowledge index => ∀ message ∈ mq.readBy index,
      decodes message = false
  | .endClose => ∀ message ∈ mq.dcs, decodes message = false
  | .raise index _ => ∀ message ∈ mq.decodedBy index,
      decodes message = false
  | _ => True

instance (decodes : Nat → Bool) (mq : MqState) :
    DecidablePred (mq.DropsNothing decodes)
  | .open _ => inferInstanceAs (Decidable True)
  | .check _ => inferInstanceAs (Decidable True)
  | .lose => inferInstanceAs (Decidable True)
  | .beginClose => inferInstanceAs (Decidable True)
  | .endClose => inferInstanceAs (Decidable (∀ message ∈ _, _))
  | .fetch _ => inferInstanceAs (Decidable True)
  | .failFetch _ => inferInstanceAs (Decidable True)
  | .failAcknowledge _ => inferInstanceAs (Decidable (∀ message ∈ _, _))
  | .push _ => inferInstanceAs (Decidable True)
  | .endRead _ => inferInstanceAs (Decidable True)
  | .take _ => inferInstanceAs (Decidable True)
  | .hand _ _ => inferInstanceAs (Decidable True)
  | .raise _ _ => inferInstanceAs (Decidable (∀ message ∈ _, _))
  | .interrupt _ => inferInstanceAs (Decidable True)

/-- Nothing that decodes is missing from the flow, and only what decodes has
been handed over. -/
structure Conserved (decodes : Nat → Bool) (mq : MqState) : Prop where
  tidy : mq.Tidy
  complete :
    mq.flow.filter decodes = (List.range mq.fetched).filter decodes
  decoded : ∀ message ∈ mq.handed, decodes message = true

theorem conserved_start (decodes : Nat → Bool) :
    ({} : MqState).Conserved decodes where
  tidy := tidy_start
  complete := rfl
  decoded := by simp

theorem Conserved.handed_append {decodes : Nat → Bool} {mq : MqState}
    (conserved : mq.Conserved decodes) :
    mq.handed ++ mq.onTheWay.filter decodes =
      (List.range mq.fetched).filter decodes := by
  have split : mq.flow = mq.handed ++ mq.onTheWay :=
    List.append_assoc _ _ _
  rw [← conserved.complete, split, List.filter_append,
    List.filter_eq_self.mpr conserved.decoded]

section Step

variable {mq next : MqState} {decodes : Nat → Bool} {label : MqLabel}

theorem flow_openMq (mq : MqState) (outcome : OpenOutcome) :
    (mq.openMq outcome).flow = mq.flow := by
  cases outcome with
  | succeeds => exact flow_opened mq
  | notConstructed => rfl
  | raises => rfl

theorem fetched_openMq (mq : MqState) (outcome : OpenOutcome) :
    (mq.openMq outcome).fetched = mq.fetched := by
  cases outcome <;> rfl

theorem readBy_of_holding {index message : Nat}
    (present : mq.readers[index]? = some (.holding message)) :
    mq.readBy index = some message := by
  rw [readBy, present]
  rfl

theorem decodedBy_of_holding {index message : Nat} {interrupted : Bool}
    (present :
      mq.decoders[index]? = some { pc := .holding message, interrupted }) :
    mq.decodedBy index = some message := by
  rw [decodedBy, present]
  rfl

/-- A step drops only messages that do not decode, or adds the next number at
the end. -/
theorem flow_of_step (tidy : mq.Tidy) (lawful : mq.Decodes decodes label)
    (keeps : mq.DropsNothing decodes label)
    (stepped : mq.step label = some next) :
    (next.fetched = mq.fetched ∧
        next.flow.filter decodes = mq.flow.filter decodes) ∨
      (next.fetched = mq.fetched + 1 ∧
        next.flow = mq.flow ++ [mq.fetched]) := by
  cases stepped_of_step stepped with
  | opens outcome _ =>
      exact
        Or.inl ⟨fetched_openMq mq outcome, by rw [flow_openMq]⟩
  | checks outcome _ _ => exact Or.inl ⟨rfl, rfl⟩
  | reopens outcome _ _ =>
      exact
        Or.inl ⟨fetched_openMq mq outcome, by rw [flow_openMq]⟩
  | loses _ => exact Or.inl ⟨rfl, rfl⟩
  | closesNothing _ _ => exact Or.inl ⟨rfl, rfl⟩
  | beginsClose index decoder _ present =>
      have same :
          (mq.decoders.set index
              { decoder with interrupted := true }).filterMap
              Decoder.message? =
            mq.decoders.filterMap Decoder.message? :=
        Threads.filterMap_set_of_same present rfl
      refine Or.inl ⟨rfl, ?_⟩
      rw [flow, same]
      rfl
  | endsClose _ =>
      have nothing : mq.dcs.filter decodes = [] := by
        apply List.filter_eq_nil_iff.mpr
        intro message member
        rw [keeps message member]
        decide
      refine Or.inl ⟨rfl, ?_⟩
      simp only [flow, List.filter_append, nothing, List.filter_nil]
  | fetches index present =>
      have alone := readers_alone tidy present rfl
      refine Or.inr ⟨rfl, ?_⟩
      rw [flow, flow, Threads.filterMap_of_alone present alone,
        Threads.filterMap_set_of_alone present alone]
      simp [ReaderPc.message?]
  | failsFetch index present =>
      have same :
          (mq.readers.set index .leaving).filterMap ReaderPc.message? =
            mq.readers.filterMap ReaderPc.message? :=
        Threads.filterMap_set_of_same present rfl
      refine Or.inl ⟨rfl, ?_⟩
      rw [flow, same]
      rfl
  | failsAcknowledge index message present =>
      have alone := readers_alone tidy present rfl
      have dropped : decodes message = false :=
        keeps message (readBy_of_holding present)
      refine Or.inl ⟨rfl, ?_⟩
      rw [flow, flow, Threads.filterMap_of_alone present alone,
        Threads.filterMap_set_of_alone present alone]
      simp [ReaderPc.message?, dropped]
  | pushes index message present =>
      have alone := readers_alone tidy present rfl
      refine Or.inl ⟨rfl, ?_⟩
      rw [flow, flow, Threads.filterMap_of_alone present alone,
        Threads.filterMap_set_of_alone present alone]
      simp [ReaderPc.message?]
  | endsRead index present =>
      have same :
          (mq.readers.set index .ended).filterMap ReaderPc.message? =
            mq.readers.filterMap ReaderPc.message? :=
        Threads.filterMap_set_of_same present rfl
      refine Or.inl ⟨rfl, ?_⟩
      rw [flow, same]
      rfl
  | takes index message rest interrupted present queue =>
      have alone := decoders_alone tidy present (by simp)
      refine Or.inl ⟨rfl, ?_⟩
      rw [flow, flow, Threads.filterMap_of_alone present alone,
        Threads.filterMap_set_of_alone present alone, queue]
      simp [Decoder.message?]
  | hands index message parsed interrupted present =>
      have alone := decoders_alone tidy present (by simp)
      have isParsed : parsed = decodes message :=
        lawful message (decodedBy_of_holding present)
      refine Or.inl ⟨rfl, ?_⟩
      rw [flow, flow, Threads.filterMap_of_alone present alone,
        Threads.filterMap_set_of_alone present alone, isParsed]
      cases verdict : decodes message <;>
        simp [handOver, Decoder.message?, verdict]
  | raises index message parsed interrupted present =>
      have alone := decoders_alone tidy present (by simp)
      have isParsed : parsed = false := lawful
      have dropped : decodes message = false :=
        keeps message (decodedBy_of_holding present)
      refine Or.inl ⟨rfl, ?_⟩
      rw [flow, flow, Threads.filterMap_of_alone present alone,
        Threads.filterMap_set_of_alone present alone, isParsed]
      simp [handOver, Decoder.message?, dropped]
  | interrupts index present =>
      have same :
          (mq.decoders.set index
              { pc := .ended, interrupted := true }).filterMap
              Decoder.message? =
            mq.decoders.filterMap Decoder.message? :=
        Threads.filterMap_set_of_same present rfl
      refine Or.inl ⟨rfl, ?_⟩
      rw [flow, same]
      rfl

/-- What a step passes on decodes. -/
theorem decodes_of_passes (lawful : mq.Decodes decodes label) :
    ∀ message ∈ mq.passes label, decodes message = true := by
  intro message member
  cases label with
  | hand index parsed =>
      cases parsed with
      | false => cases member
      | true => exact (lawful message (Option.mem_toList.mp member)).symm
  | raise index parsed =>
      obtain rfl : parsed = false := lawful
      cases member
  | _ => cases member

theorem conserved_of_step (conserved : mq.Conserved decodes)
    (lawful : mq.Decodes decodes label)
    (reopens : mq.ReopensWhenDone label)
    (keeps : mq.DropsNothing decodes label)
    (stepped : mq.step label = some next) : next.Conserved decodes := by
  refine ⟨tidy_of_step conserved.tidy reopens stepped, ?_, ?_⟩
  · rcases flow_of_step conserved.tidy lawful keeps stepped with
      ⟨sameFetched, kept⟩ | ⟨oneMore, added⟩
    · rw [kept, sameFetched, conserved.complete]
    · rw [added, oneMore, List.range_succ, List.filter_append,
        List.filter_append, conserved.complete]
  · intro message member
    rw [(delivers_of_step stepped).handed, List.mem_append] at member
    rcases member with before | passed
    · exact conserved.decoded message before
    · exact decodes_of_passes lawful message passed

end Step

end MqState

end LocationServer

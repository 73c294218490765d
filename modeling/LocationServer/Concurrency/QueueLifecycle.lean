import LocationServer.Concurrency.QueueThreads
import Mathlib.Data.List.Basic

/-!
# The decoders of the message queue and the order of the messages

A message goes from `fetch` through `_dcs` and one decoder to
`LocServer::update`.  As long as the threads of the last `open` are done
whenever new ones are created, one reader and one decoder move at a time, and
the messages on the way stand in the order in which they were fetched.
-/

namespace LocationServer

open StepSystem

theorem ReaderPc.message?_eq_none {pc : ReaderPc}
    (left : pc.inLoop ≠ true) : pc.message? = none := by
  cases pc with
  | fetch => rfl
  | holding message => exact absurd rfl left
  | leaving => rfl
  | ended => rfl

theorem Decoder.message?_eq_none {decoder : Decoder}
    (isEnded : ¬ decoder.pc ≠ .ended) : decoder.message? = none := by
  rw [message?, not_not.mp isEnded]

namespace MqState

/-- No two of the threads that run `decodeThread` are alive. -/
def AtMostOneDecoder (state : MqState) : Prop :=
  ∀ (left right : Nat) (first second : Decoder),
    state.decoders[left]? = some first → first.pc ≠ .ended →
      state.decoders[right]? = some second → second.pc ≠ .ended →
        left = right

/-- The messages handed over and those on the way, the oldest first. -/
def flow (state : MqState) : List Nat :=
  state.handed ++ state.decoders.filterMap Decoder.message? ++
    (state.dcs ++ state.readers.filterMap ReaderPc.message?)

/-- New threads carry no message. -/
theorem flow_opened (state : MqState) : state.opened.flow = state.flow := by
  have nothingRead : [ReaderPc.fetch].filterMap ReaderPc.message? = [] :=
    rfl
  have nothingTaken : [({} : Decoder)].filterMap Decoder.message? = [] :=
    rfl
  simp only [flow, opened, List.filterMap_append, nothingRead,
    nothingTaken, List.append_nil]

structure Tidy (state : MqState) : Prop where
  reader :
    ∀ index pc, state.readers[index]? = some pc → pc.inLoop = true →
      state.threadRead = some index
  decoder :
    ∀ index decoder, state.decoders[index]? = some decoder →
      decoder.pc ≠ .ended → state.threadDecode = some index
  numbered : ∀ message ∈ state.flow, message < state.fetched
  ordered : state.flow.Pairwise (· < ·)

theorem Tidy.atMostOneDecoder {state : MqState} (tidy : state.Tidy) :
    state.AtMostOneDecoder := by
  intro left right first second foundFirst firstAlive foundSecond secondAlive
  have isLeft := tidy.decoder left first foundFirst firstAlive
  have isRight := tidy.decoder right second foundSecond secondAlive
  exact Option.some.inj (isLeft.symm.trans isRight)

theorem Tidy.handed_ordered {state : MqState} (tidy : state.Tidy) :
    state.handed.Pairwise (· < ·) :=
  (List.pairwise_append.mp (List.pairwise_append.mp tidy.ordered).1).1

section Step

variable {state next : MqState}

theorem readers_alone (tidy : state.Tidy) {index : Nat} {pc : ReaderPc}
    (present : state.readers[index]? = some pc) (reads : pc.inLoop = true) :
    ∀ position other, state.readers[position]? = some other →
      position ≠ index → other.message? = none := by
  intro position other found different
  apply ReaderPc.message?_eq_none
  intro otherReads
  have isIndex := tidy.reader index pc present reads
  have isPosition := tidy.reader position other found otherReads
  exact different (Option.some.inj (isPosition.symm.trans isIndex))

theorem decoders_alone (tidy : state.Tidy) {index : Nat} {decoder : Decoder}
    (present : state.decoders[index]? = some decoder)
    (alive : decoder.pc ≠ .ended) :
    ∀ position other, state.decoders[position]? = some other →
      position ≠ index → other.message? = none := by
  intro position other found different
  apply Decoder.message?_eq_none
  intro otherAlive
  exact
    different
      (tidy.atMostOneDecoder position index other decoder found otherAlive
        present alive)

/-- A step drops some of the messages on the way, or adds the next number at
the end. -/
theorem flow_of_moved (tidy : state.Tidy) (moved : Moved state next) :
    (next.fetched = state.fetched ∧ next.flow.Sublist state.flow) ∨
      (next.fetched = state.fetched + 1 ∧
        next.flow = state.flow ++ [state.fetched]) := by
  cases moved with
  | control conn =>
      exact Or.inl ⟨rfl, List.Sublist.refl _⟩
  | beginClose index decoder present =>
      have same :
          (state.decoders.set index
              { decoder with interrupted := true }).filterMap
              Decoder.message? =
            state.decoders.filterMap Decoder.message? :=
        Threads.filterMap_set_of_same present rfl
      refine Or.inl ⟨rfl, ?_⟩
      rw [flow, same]
      exact List.Sublist.refl _
  | endClose =>
      refine Or.inl ⟨rfl, ?_⟩
      exact (List.sublist_append_right state.dcs _).append_left _
  | fetch index present =>
      have alone := readers_alone tidy present rfl
      refine Or.inr ⟨rfl, ?_⟩
      rw [flow, flow, Threads.filterMap_of_alone present alone,
        Threads.filterMap_set_of_alone present alone]
      simp [ReaderPc.message?]
  | leave index before present reads =>
      have alone := readers_alone tidy present reads
      refine Or.inl ⟨rfl, ?_⟩
      rw [flow, flow, Threads.filterMap_set_of_alone present alone]
      exact ((List.nil_sublist _).append_left _).append_left _
  | endRead index present =>
      have same :
          (state.readers.set index .ended).filterMap ReaderPc.message? =
            state.readers.filterMap ReaderPc.message? :=
        Threads.filterMap_set_of_same present rfl
      refine Or.inl ⟨rfl, ?_⟩
      rw [flow, same]
      exact List.Sublist.refl _
  | push index message present =>
      have alone := readers_alone tidy present rfl
      refine Or.inl ⟨rfl, ?_⟩
      rw [flow, flow, Threads.filterMap_of_alone present alone,
        Threads.filterMap_set_of_alone present alone]
      simp [ReaderPc.message?]
  | take index message rest interrupted present queue =>
      have alone := decoders_alone tidy present (by simp)
      refine Or.inl ⟨rfl, ?_⟩
      rw [flow, flow, Threads.filterMap_of_alone present alone,
        Threads.filterMap_set_of_alone present alone, queue]
      simp [Decoder.message?]
  | hand index message parsed interrupted after present nothingAfter =>
      have alone := decoders_alone tidy present (by simp)
      refine Or.inl ⟨rfl, ?_⟩
      rw [flow, flow, Threads.filterMap_of_alone present alone,
        Threads.filterMap_set_of_alone present alone, nothingAfter]
      cases parsed <;> simp [handOver, Decoder.message?]
  | interrupt index present =>
      have same :
          (state.decoders.set index
              { pc := .ended, interrupted := true }).filterMap
              Decoder.message? =
            state.decoders.filterMap Decoder.message? :=
        Threads.filterMap_set_of_same present rfl
      refine Or.inl ⟨rfl, ?_⟩
      rw [flow, same]
      exact List.Sublist.refl _

theorem reader_of_moved (tidy : state.Tidy) (moved : Moved state next) :
    ∀ index pc, next.readers[index]? = some pc → pc.inLoop = true →
      next.threadRead = some index := by
  have only := tidy.reader
  cases moved with
  | control conn => exact only
  | beginClose index decoder present => exact only
  | endClose => exact only
  | fetch index present =>
      exact Threads.only_set only present fun _ => rfl
  | leave index before present reads =>
      exact Threads.only_set only present fun _ => reads
  | endRead index present =>
      exact Threads.only_set only present (by simp [ReaderPc.inLoop])
  | push index message present =>
      exact Threads.only_set only present fun _ => rfl
  | take index message rest interrupted present queue => exact only
  | hand index message parsed interrupted after present nothing =>
      exact only
  | interrupt index present => exact only

theorem decoder_of_moved (tidy : state.Tidy) (moved : Moved state next) :
    ∀ index decoder, next.decoders[index]? = some decoder →
      decoder.pc ≠ .ended → next.threadDecode = some index := by
  have only := tidy.decoder
  cases moved with
  | control conn => exact only
  | beginClose index decoder present =>
      exact Threads.only_set only present id
  | endClose => exact only
  | fetch index present => exact only
  | leave index before present reads => exact only
  | endRead index present => exact only
  | push index message present => exact only
  | take index message rest interrupted present queue =>
      exact Threads.only_set only present (by simp)
  | hand index message parsed interrupted after present nothing =>
      exact Threads.only_set only present (by simp)
  | interrupt index present =>
      exact Threads.only_set only present (by simp)

theorem tidy_of_moved (tidy : state.Tidy) (moved : Moved state next) :
    next.Tidy := by
  refine ⟨reader_of_moved tidy moved, decoder_of_moved tidy moved, ?_, ?_⟩
  · rcases flow_of_moved tidy moved with
      ⟨sameFetched, dropped⟩ | ⟨oneMore, added⟩
    · intro message member
      rw [sameFetched]
      exact tidy.numbered message (dropped.subset member)
    · intro message member
      rw [added, List.mem_append, List.mem_singleton] at member
      rw [oneMore]
      rcases member with older | new
      · exact Nat.lt_succ_of_lt (tidy.numbered message older)
      · rw [new]
        exact Nat.lt_succ_self _
  · rcases flow_of_moved tidy moved with
      ⟨-, dropped⟩ | ⟨-, added⟩
    · exact tidy.ordered.sublist dropped
    · rw [added]
      apply List.pairwise_append.mpr
      refine ⟨tidy.ordered, List.pairwise_singleton _ _, ?_⟩
      intro message older new isNew
      rw [List.mem_singleton.mp isNew]
      exact tidy.numbered message older

theorem tidy_opened (tidy : state.Tidy) (done : state.LastThreadsDone) :
    state.opened.Tidy := by
  have readersLeft :
      ∀ (position : Nat) (pc : ReaderPc),
        state.readers[position]? = some pc → ¬ pc.inLoop = true := by
    intro position pc found reads
    have isHandle := tidy.reader position pc found reads
    rw [done.1 position isHandle pc found] at reads
    cases reads
  have decodersEnded :
      ∀ (position : Nat) (decoder : Decoder),
        state.decoders[position]? = some decoder → ¬ decoder.pc ≠ .ended := by
    intro position decoder found alive
    have isHandle := tidy.decoder position decoder found alive
    exact alive (done.2 position isHandle decoder found)
  refine ⟨?_, ?_, ?_, ?_⟩
  · intro index pc found reads
    exact
      congrArg some
        (Threads.only_new readersLeft .fetch index pc found reads)
  · intro index decoder found alive
    exact
      congrArg some
        (Threads.only_new decodersEnded {} index decoder found alive)
  · rw [flow_opened]
    exact tidy.numbered
  · rw [flow_opened]
    exact tidy.ordered

theorem tidy_of_step {label : MqLabel} (tidy : state.Tidy)
    (reopens : state.ReopensWhenDone label)
    (stepped : state.step label = some next) : next.Tidy := by
  rcases moved_of_step stepped with ⟨creates, isOpened⟩ | moved
  · rw [isOpened]
    exact tidy_opened tidy (reopens creates)
  · exact tidy_of_moved tidy moved

/-- `check` finds the connection lost but not the decoder, which has no part in
the loss, and creates another one. -/
theorem two_decoders_of_check {index : Nat} {decoder : Decoder}
    (notClosing : state.closing = false)
    (lost : state.conn ≠ .connected)
    (found : state.decoders[index]? = some decoder)
    (alive : decoder.pc ≠ .ended)
    (stepped : state.step (.check .succeeds) = some next) :
    ¬ next.AtMostOneDecoder := by
  have isOpened : next = state.opened := by
    simpa [step, notClosing, lost, openMq] using stepped.symm
  obtain ⟨older, -⟩ := List.getElem?_eq_some_iff.mp found
  intro single
  rw [isOpened] at single
  have same :=
    single index state.decoders.length decoder {}
      (by rw [opened, List.getElem?_append_left older, found]) alive
      (by simp [opened]) (by simp)
  omega

end Step

/-! ## Runs -/

theorem tidy_start : ({} : MqState).Tidy where
  reader := by simp
  decoder := by simp
  numbered := by simp [flow]
  ordered := List.Pairwise.nil

/-- In every run that creates threads only when those of the last `open` are
done, one decoder at most is alive and the messages are handed over in the
order in which they were fetched. -/
theorem handed_in_fetch_order {final : MqState} {labels : List MqLabel}
    (reopens : Along step ReopensWhenDone {} labels)
    (execution : run step {} labels = some final) :
    final.AtMostOneDecoder ∧ final.handed.Pairwise (· < ·) := by
  have tidy : final.Tidy :=
    invariant_of_along
      (fun _ _ _ tidy reopens stepped => tidy_of_step tidy reopens stepped)
      tidy_start reopens execution
  exact ⟨tidy.atMostOneDecoder, tidy.handed_ordered⟩

/-- A connection that is closed and opened again by the program. -/
theorem handed_in_fetch_order_after_close :
    (outcome step {}
      [.open .succeeds, .fetch 0, .push 0, .take 0, .hand 0 true,
        .beginClose, .failFetch 0, .endRead 0, .interrupt 0, .endClose,
        .open .succeeds, .fetch 1, .push 1, .take 1, .hand 1 true]
      (by decide)).handed.Pairwise (· < ·) :=
  (handed_in_fetch_order
    (by decide)
    (@run_eq_outcome MqState MqLabel step {}
      [.open .succeeds, .fetch 0, .push 0, .take 0, .hand 0 true,
        .beginClose, .failFetch 0, .endRead 0, .interrupt 0, .endClose,
        .open .succeeds, .fetch 1, .push 1, .take 1, .hand 1 true]
      (by decide))).2

/-- The connection is lost and opened again by `check`; the old decoder takes
the first message and the new one overtakes it. -/
theorem reopened_queue_reorders :
    ¬ (outcome step {}
        [.open .succeeds, .lose, .failFetch 0, .endRead 0,
          .check .succeeds, .fetch 1, .push 1, .fetch 1, .push 1, .take 0,
          .take 1, .hand 1 true, .hand 0 true] (by decide)).AtMostOneDecoder ∧
      (outcome step {}
        [.open .succeeds, .lose, .failFetch 0, .endRead 0,
          .check .succeeds, .fetch 1, .push 1, .fetch 1, .push 1, .take 0,
          .take 1, .hand 1 true, .hand 0 true] (by decide)).handed =
        [1, 0] := by
  constructor
  · intro single
    have same :=
      single 0 1 {} {} (by decide) (by decide) (by decide) (by decide)
    cases same
  · decide

end MqState

end LocationServer

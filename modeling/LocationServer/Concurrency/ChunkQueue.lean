import LocationServer.Foundation.StepSystem
import LocationServer.Foundation.Threads

/-!
# The queue between `readThread` and `decodeThread` (`mq.cpp`)

Any number of readers and decoders share `_dcs` and `_mtx`.  A thread is its
program counter; a step is one statement of its loop, taken while the thread
holds the lock where the source holds it.  Chunks are numbered in the order in
which they are fetched.  `timed_wait` gives the lock up, ends at any time (a
notification, a spurious wake-up or the expiry of the 20 ms), and takes the
lock again before it returns.
-/

namespace LocationServer

open StepSystem

inductive ThreadPc where
  /-- `readThread`: before `_recver.fetch`. -/
  | fetch
  | lockToPush (chunk : Nat)
  | push (chunk : Nat)
  | unlockPushed
  | notify
  /-- `decodeThread`: at the top of the loop. -/
  | lockToTake
  | test
  | take
  | wait
  | waiting
  | woken
  | retest
  | unlock (dc : Option Nat)
  | parse (chunk : Nat)
  deriving DecidableEq, Repr

structure QueueState where
  threads : List ThreadPc
  /-- The thread that holds `_mtx`. -/
  owner : Option Nat := none
  dcs : List Nat := []
  /-- The number of chunks fetched so far. -/
  fetched : Nat := 0
  /-- The chunks pushed so far, in order. -/
  pushed : List Nat := []
  /-- The chunks passed to `parseMsg` so far, in order. -/
  parsed : List Nat := []
  deriving DecidableEq, Repr

inductive QueueLabel where
  | move (index : Nat)
  | notify (index : Nat) (woken : Option Nat)
  | wake (index : Nat)
  deriving DecidableEq, Repr

namespace ThreadPc

/-- The thread is inside a block that holds `_mtx`. -/
def hasLock : ThreadPc → Bool
  | .push _ => true
  | .unlockPushed => true
  | .test => true
  | .take => true
  | .wait => true
  | .retest => true
  | .unlock _ => true
  | _ => false

/-- The chunk a reader has fetched and not pushed yet. -/
def fetchedChunk : ThreadPc → Option Nat
  | .lockToPush chunk => some chunk
  | .push chunk => some chunk
  | _ => none

/-- The chunk an iteration of a decoder has taken and not parsed yet. -/
def heldChunk : ThreadPc → Option Nat
  | .unlock dc => dc
  | .parse chunk => some chunk
  | _ => none

def isDecoder : ThreadPc → Bool
  | .fetch => false
  | .lockToPush _ => false
  | .push _ => false
  | .unlockPushed => false
  | .notify => false
  | _ => true

end ThreadPc

namespace QueueState

/-- `readers` readers and `decoders` decoders at the top of their loops. -/
def start (readers decoders : Nat) : QueueState where
  threads :=
    List.replicate readers .fetch ++ List.replicate decoders .lockToTake

def turn (state : QueueState) (index : Nat) (after : ThreadPc) :
    QueueState :=
  { state with threads := state.threads.set index after }

/-- Enter the block: possible only while nobody holds the lock. -/
def lock (state : QueueState) (index : Nat) (after : ThreadPc) :
    Option QueueState :=
  if state.owner = none then
    some { state.turn index after with owner := some index }
  else none

def unlock (state : QueueState) (index : Nat) (after : ThreadPc) :
    QueueState :=
  { state.turn index after with owner := none }

def step (state : QueueState) : QueueLabel → Option QueueState
  | .move index =>
      match state.threads[index]? with
      | some .fetch =>
          some
            { state.turn index (.lockToPush state.fetched) with
              fetched := state.fetched + 1 }
      | some (.lockToPush chunk) => state.lock index (.push chunk)
      | some (.push chunk) =>
          some
            { state.turn index .unlockPushed with
              dcs := state.dcs ++ [chunk]
              pushed := state.pushed ++ [chunk] }
      | some .unlockPushed => some (state.unlock index .notify)
      | some .lockToTake => state.lock index .test
      | some .test =>
          if state.dcs ≠ [] then some (state.turn index .take)
          else some (state.turn index .wait)
      | some .take =>
          match state.dcs with
          | chunk :: rest =>
              some
                { state.turn index (.unlock (some chunk)) with dcs := rest }
          | [] => none
      | some .wait => some (state.unlock index .waiting)
      | some .woken => state.lock index .retest
      | some .retest =>
          if state.dcs ≠ [] then some (state.turn index .take)
          else some (state.turn index (.unlock none))
      | some (.unlock none) => some (state.unlock index .lockToTake)
      | some (.unlock (some chunk)) =>
          some (state.unlock index (.parse chunk))
      | some (.parse chunk) =>
          some
            { state.turn index .lockToTake with
              parsed := state.parsed ++ [chunk] }
      | _ => none
  | .notify index (some woken) =>
      if state.threads[index]? = some .notify ∧
          state.threads[woken]? = some .waiting then
        some ((state.turn woken .woken).turn index .fetch)
      else none
  | .notify index none =>
      if state.threads[index]? = some .notify ∧
          ThreadPc.waiting ∉ state.threads then
        some (state.turn index .fetch)
      else none
  | .wake index =>
      if state.threads[index]? = some .waiting then
        some (state.turn index .woken)
      else none

/-- The chunks held by decoders. -/
def held (state : QueueState) : List Nat :=
  state.threads.filterMap ThreadPc.heldChunk

/-! ## What a step can do -/

/-- What a change of one program counter does to the lock. -/
inductive LockUse (state : QueueState) (index : Nat)
    (before after : ThreadPc) : Option Nat → Prop where
  | keep (same : after.hasLock = before.hasLock) :
      LockUse state index before after state.owner
  | acquire (free : state.owner = none) (now : after.hasLock = true) :
      LockUse state index before after (some index)
  | release (had : before.hasLock = true) (now : after.hasLock = false) :
      LockUse state index before after none

/-- A change of one program counter that moves no chunk. -/
structure Turn (state : QueueState) (index : Nat)
    (before after : ThreadPc) (owner : Option Nat) : Prop where
  present : state.threads[index]? = some before
  fetchedChunk : after.fetchedChunk = before.fetchedChunk
  heldChunk : after.heldChunk = before.heldChunk
  isDecoder : after.isDecoder = before.isDecoder
  lockUse : LockUse state index before after owner
  filled : after = .take → state.dcs ≠ []

inductive Moved (state : QueueState) : QueueState → Prop where
  | turn (index : Nat) (before after : ThreadPc) (owner : Option Nat)
      (turn : Turn state index before after owner) :
      Moved state
        { state with threads := state.threads.set index after, owner }
  | fetch (index : Nat) (present : state.threads[index]? = some .fetch) :
      Moved state
        { state with
          threads := state.threads.set index (.lockToPush state.fetched)
          fetched := state.fetched + 1 }
  | push (index chunk : Nat)
      (present : state.threads[index]? = some (.push chunk)) :
      Moved state
        { state with
          threads := state.threads.set index .unlockPushed
          dcs := state.dcs ++ [chunk]
          pushed := state.pushed ++ [chunk] }
  | take (index chunk : Nat) (rest : List Nat)
      (present : state.threads[index]? = some .take)
      (queue : state.dcs = chunk :: rest) :
      Moved state
        { state with
          threads := state.threads.set index (.unlock (some chunk))
          dcs := rest }
  | parse (index chunk : Nat)
      (present : state.threads[index]? = some (.parse chunk)) :
      Moved state
        { state with
          threads := state.threads.set index .lockToTake
          parsed := state.parsed ++ [chunk] }

/-- A turn that leaves the lock alone. -/
theorem moved_keep {state : QueueState} {index : Nat}
    {before after : ThreadPc}
    (present : state.threads[index]? = some before)
    (fetchedChunk : after.fetchedChunk = before.fetchedChunk)
    (heldChunk : after.heldChunk = before.heldChunk)
    (isDecoder : after.isDecoder = before.isDecoder)
    (hasLock : after.hasLock = before.hasLock)
    (filled : after = .take → state.dcs ≠ []) :
    Moved state (state.turn index after) :=
  Moved.turn index before after _
    ⟨present, fetchedChunk, heldChunk, isDecoder, .keep hasLock, filled⟩

theorem moved_lock {state next : QueueState} {index : Nat}
    {before after : ThreadPc}
    (present : state.threads[index]? = some before)
    (locked : state.lock index after = some next)
    (fetchedChunk : after.fetchedChunk = before.fetchedChunk)
    (heldChunk : after.heldChunk = before.heldChunk)
    (isDecoder : after.isDecoder = before.isDecoder)
    (hasLock : after.hasLock = true) (notTake : after ≠ .take) :
    Moved state next := by
  rw [lock] at locked
  split at locked
  · rename_i free
    rw [← Option.some.inj locked]
    exact
      Moved.turn index before after _
        ⟨present, fetchedChunk, heldChunk, isDecoder,
          .acquire free hasLock, fun isTake => absurd isTake notTake⟩
  · cases locked

theorem moved_unlock {state : QueueState} {index : Nat}
    {before after : ThreadPc}
    (present : state.threads[index]? = some before)
    (fetchedChunk : after.fetchedChunk = before.fetchedChunk)
    (heldChunk : after.heldChunk = before.heldChunk)
    (isDecoder : after.isDecoder = before.isDecoder)
    (had : before.hasLock = true) (now : after.hasLock = false) :
    Moved state (state.unlock index after) :=
  Moved.turn index before after _
    ⟨present, fetchedChunk, heldChunk, isDecoder, .release had now,
      fun isTake => by rw [isTake] at now; cases now⟩

theorem moved_of_move {state next : QueueState} {index : Nat}
    (stepped : state.step (.move index) = some next) :
    Moved state next := by
  match present : state.threads[index]? with
  | none => simp [step, present] at stepped
  | some .notify => simp [step, present] at stepped
  | some .waiting => simp [step, present] at stepped
  | some .fetch =>
      simp only [step, present, Option.some.injEq] at stepped
      rw [← stepped]
      exact Moved.fetch index present
  | some (.lockToPush chunk) =>
      simp only [step, present] at stepped
      exact moved_lock present stepped rfl rfl rfl rfl (by simp)
  | some (.push chunk) =>
      simp only [step, present, Option.some.injEq] at stepped
      rw [← stepped]
      exact Moved.push index chunk present
  | some .unlockPushed =>
      simp only [step, present, Option.some.injEq] at stepped
      rw [← stepped]
      exact moved_unlock present rfl rfl rfl rfl rfl
  | some .lockToTake =>
      simp only [step, present] at stepped
      exact moved_lock present stepped rfl rfl rfl rfl (by simp)
  | some .test =>
      simp only [step, present] at stepped
      split at stepped <;> rw [← Option.some.inj stepped]
      · rename_i filled
        exact moved_keep present rfl rfl rfl rfl (fun _ => filled)
      · exact moved_keep present rfl rfl rfl rfl (by simp)
  | some .take =>
      cases queue : state.dcs with
      | nil =>
          simp [step, present, queue] at stepped
      | cons chunk rest =>
          simp only [step, present, queue, Option.some.injEq] at stepped
          rw [← stepped]
          exact Moved.take index chunk rest present queue
  | some .wait =>
      simp only [step, present, Option.some.injEq] at stepped
      rw [← stepped]
      exact moved_unlock present rfl rfl rfl rfl rfl
  | some .woken =>
      simp only [step, present] at stepped
      exact moved_lock present stepped rfl rfl rfl rfl (by simp)
  | some .retest =>
      simp only [step, present] at stepped
      split at stepped <;> rw [← Option.some.inj stepped]
      · rename_i filled
        exact moved_keep present rfl rfl rfl rfl (fun _ => filled)
      · exact moved_keep present rfl rfl rfl rfl (by simp)
  | some (.unlock none) =>
      simp only [step, present, Option.some.injEq] at stepped
      rw [← stepped]
      exact moved_unlock present rfl rfl rfl rfl rfl
  | some (.unlock (some chunk)) =>
      simp only [step, present, Option.some.injEq] at stepped
      rw [← stepped]
      exact moved_unlock present rfl rfl rfl rfl rfl
  | some (.parse chunk) =>
      simp only [step, present, Option.some.injEq] at stepped
      rw [← stepped]
      exact Moved.parse index chunk present

/-- A step is a move, or the two moves of a notification that finds a waiting
thread. -/
theorem moved_of_step {state next : QueueState} {label : QueueLabel}
    (stepped : state.step label = some next) :
    Moved state next ∨ ∃ middle, Moved state middle ∧ Moved middle next := by
  cases label with
  | move index =>
      exact Or.inl (moved_of_move stepped)
  | notify index woken =>
      cases woken with
      | some woken =>
          simp only [step, Option.ite_none_right_eq_some,
            Option.some.injEq] at stepped
          obtain ⟨⟨present, waits⟩, isNext⟩ := stepped
          have different : woken ≠ index := by
            intro same
            rw [same, present] at waits
            cases waits
          have stillPresent :
              (state.turn woken .woken).threads[index]? = some .notify :=
            (List.getElem?_set_ne different).trans present
          have wakes : Moved state (state.turn woken .woken) :=
            moved_keep waits rfl rfl rfl rfl (by simp)
          have returns :
              Moved (state.turn woken .woken)
                ((state.turn woken .woken).turn index .fetch) :=
            moved_keep stillPresent rfl rfl rfl rfl (by simp)
          rw [← isNext]
          exact Or.inr ⟨_, wakes, returns⟩
      | none =>
          simp only [step, Option.ite_none_right_eq_some,
            Option.some.injEq] at stepped
          obtain ⟨⟨present, -⟩, isNext⟩ := stepped
          rw [← isNext]
          exact Or.inl (moved_keep present rfl rfl rfl rfl (by simp))
  | wake index =>
      simp only [step, Option.ite_none_right_eq_some,
        Option.some.injEq] at stepped
      obtain ⟨present, isNext⟩ := stepped
      rw [← isNext]
      exact Or.inl (moved_keep present rfl rfl rfl rfl (by simp))

/-- What every move keeps, every run keeps. -/
theorem invariant_of_moves {invariant : QueueState → Prop}
    (moveKeeps :
      ∀ state next, invariant state → Moved state next → invariant next)
    {state final : QueueState} {labels : List QueueLabel}
    (initially : invariant state)
    (execution : run step state labels = some final) :
    invariant final := by
  refine invariant_of_run ?_ initially execution
  intro state label next holds stepped
  rcases moved_of_step stepped with moved | ⟨middle, first, second⟩
  · exact moveKeeps state next holds moved
  · exact
      moveKeeps middle next (moveKeeps state middle holds first) second

end QueueState

end LocationServer

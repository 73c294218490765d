import LocationServer.Foundation.StepSystem
import LocationServer.Foundation.Threads

/-!
# The threads of the message queue (`mq.cpp`)

`open` creates a reader and a decoder and stores their handles; `check` calls
it again whenever the connection is not open; `close` interrupts and joins the
two threads of the handles.  A reader leaves its loop when `fetch` or
`acknowledge` raises, a decoder when it is interrupted while it waits or when
handing a message over raises.  The threads of every `open` stay in the model
after their handles are overwritten.  Creating a thread does not fail.

The calls of `open`, `check` and `close` come one after the other: the start
makes the first, the timer thread the checks, and the main thread closes after
it has joined the timer thread.  A message is the number of its fetch.  `fetch`
can deliver a prefetched message after the connection is lost, so it is never
tied to the state of the connection.
-/

namespace LocationServer

open StepSystem

/-- The connection that `_conn` points to. -/
inductive Connection where
  | null
  | connected
  | closed
  deriving DecidableEq, Repr

/-- `close` of the connection, if there is one. -/
def Connection.close : Connection → Connection
  | .null => .null
  | _ => .closed

/-- How `open` ends: `notConstructed` is an exception before `_conn` is
assigned, `raises` one after it. -/
inductive OpenOutcome where
  | succeeds
  | notConstructed
  | raises
  deriving DecidableEq, Repr

inductive ReaderPc where
  | fetch
  | holding (message : Nat)
  | leaving
  | ended
  deriving DecidableEq, Repr

inductive DecoderPc where
  | taking
  | holding (message : Nat)
  | ended
  deriving DecidableEq, Repr

structure Decoder where
  pc : DecoderPc := .taking
  interrupted : Bool := false
  deriving DecidableEq, Repr

def ReaderPc.message? : ReaderPc → Option Nat
  | .holding message => some message
  | _ => none

/-- The reader can fetch or push a message. -/
def ReaderPc.inLoop : ReaderPc → Bool
  | .fetch | .holding _ => true
  | _ => false

def Decoder.message? (decoder : Decoder) : Option Nat :=
  match decoder.pc with
  | .holding message => some message
  | _ => none

structure MqState where
  conn : Connection := .null
  readers : List ReaderPc := []
  decoders : List Decoder := []
  threadRead : Option Nat := none
  threadDecode : Option Nat := none
  /-- A call of `close` is waiting for the two threads. -/
  closing : Bool := false
  /-- The number of messages fetched so far. -/
  fetched : Nat := 0
  dcs : List Nat := []
  /-- The messages handed to `LocServer::update`, in order. -/
  handed : List Nat := []
  deriving DecidableEq, Repr

inductive MqLabel where
  | open (outcome : OpenOutcome)
  | check (outcome : OpenOutcome)
  | lose
  | beginClose
  | endClose
  | fetch (index : Nat)
  | failFetch (index : Nat)
  | failAcknowledge (index : Nat)
  | push (index : Nat)
  | endRead (index : Nat)
  | take (index : Nat)
  | hand (index : Nat) (parsed : Bool)
  | raise (index : Nat) (parsed : Bool)
  | interrupt (index : Nat)
  deriving DecidableEq, Repr

namespace MqState

def opened (state : MqState) : MqState :=
  { state with
    conn := .connected
    readers := state.readers ++ [.fetch]
    decoders := state.decoders ++ [{}]
    threadRead := some state.readers.length
    threadDecode := some state.decoders.length }

def openMq (state : MqState) : OpenOutcome → MqState
  | .succeeds => state.opened
  | .notConstructed => { state with conn := state.conn.close }
  | .raises => { state with conn := .closed }

def handOver (state : MqState) (message : Nat) (parsed : Bool) : List Nat :=
  if parsed then state.handed ++ [message] else state.handed

/-- The two threads of the handles can be joined. -/
def ThreadsEnded (state : MqState) : Prop :=
  (∀ index ∈ state.threadRead,
      state.readers[index]? = some .ended) ∧
    ∀ index ∈ state.threadDecode,
      state.decoders[index]?.map Decoder.pc = some .ended

instance (state : MqState) : Decidable state.ThreadsEnded :=
  inferInstanceAs (Decidable (_ ∧ _))

def step (state : MqState) : MqLabel → Option MqState
  | .open outcome =>
      if state.closing then none else some (state.openMq outcome)
  | .check outcome =>
      if state.closing then none
      else if state.conn = .connected then some state
      else some (state.openMq outcome)
  | .lose =>
      if state.conn = .connected then some { state with conn := .closed }
      else none
  | .beginClose =>
      if state.closing then none
      else if state.conn = .null then some state
      else
        -- a null handle is dereferenced when no `open` has succeeded
        match state.threadRead, state.threadDecode with
        | some _, some index =>
            state.decoders[index]?.map fun decoder =>
              { state with
                conn := .closed
                closing := true
                decoders :=
                  state.decoders.set index
                    { decoder with interrupted := true } }
        | _, _ => none
  | .endClose =>
      if state.closing ∧ state.ThreadsEnded then
        some { state with dcs := [], conn := .null, closing := false }
      else none
  | .fetch index =>
      match state.readers[index]? with
      | some .fetch =>
          some
            { state with
              readers := state.readers.set index (.holding state.fetched)
              fetched := state.fetched + 1 }
      | _ => none
  | .failFetch index =>
      match state.readers[index]? with
      | some .fetch =>
          some { state with readers := state.readers.set index .leaving }
      | _ => none
  | .failAcknowledge index =>
      match state.readers[index]? with
      | some (.holding _) =>
          some { state with readers := state.readers.set index .leaving }
      | _ => none
  | .push index =>
      match state.readers[index]? with
      | some (.holding message) =>
          some
            { state with
              readers := state.readers.set index .fetch
              dcs := state.dcs ++ [message] }
      | _ => none
  | .endRead index =>
      match state.readers[index]? with
      | some .leaving =>
          some
            { state with
              readers := state.readers.set index .ended
              conn := state.conn.close }
      | _ => none
  | .take index =>
      match state.decoders[index]?, state.dcs with
      | some { pc := .taking, interrupted }, message :: rest =>
          some
            { state with
              decoders :=
                state.decoders.set index
                  { pc := .holding message, interrupted }
              dcs := rest }
      | _, _ => none
  | .hand index parsed =>
      match state.decoders[index]? with
      | some { pc := .holding message, interrupted } =>
          some
            { state with
              decoders :=
                state.decoders.set index { pc := .taking, interrupted }
              handed := state.handOver message parsed }
      | _ => none
  | .raise index parsed =>
      match state.decoders[index]? with
      | some { pc := .holding message, interrupted } =>
          some
            { state with
              decoders :=
                state.decoders.set index { pc := .ended, interrupted }
              handed := state.handOver message parsed }
      | _ => none
  | .interrupt index =>
      match state.decoders[index]? with
      | some { pc := .taking, interrupted := true } =>
          some
            { state with
              decoders :=
                state.decoders.set index
                  { pc := .ended, interrupted := true } }
      | _ => none

/-- The step creates threads. -/
def Creates (state : MqState) : MqLabel → Prop
  | .open outcome => outcome = .succeeds
  | .check outcome => outcome = .succeeds ∧ state.conn ≠ .connected
  | _ => False

instance (state : MqState) : DecidablePred state.Creates
  | .open _ => inferInstanceAs (Decidable (_ = _))
  | .check _ => inferInstanceAs (Decidable (_ ∧ _))
  | .lose => inferInstanceAs (Decidable False)
  | .beginClose => inferInstanceAs (Decidable False)
  | .endClose => inferInstanceAs (Decidable False)
  | .fetch _ => inferInstanceAs (Decidable False)
  | .failFetch _ => inferInstanceAs (Decidable False)
  | .failAcknowledge _ => inferInstanceAs (Decidable False)
  | .push _ => inferInstanceAs (Decidable False)
  | .endRead _ => inferInstanceAs (Decidable False)
  | .take _ => inferInstanceAs (Decidable False)
  | .hand _ _ => inferInstanceAs (Decidable False)
  | .raise _ _ => inferInstanceAs (Decidable False)
  | .interrupt _ => inferInstanceAs (Decidable False)

/-- The reader of the last `open` has left its loop and the decoder of the last
`open` has ended. -/
def LastThreadsDone (state : MqState) : Prop :=
  (∀ index ∈ state.threadRead, ∀ pc ∈ state.readers[index]?,
      pc.inLoop = false) ∧
    ∀ index ∈ state.threadDecode, ∀ decoder ∈ state.decoders[index]?,
      decoder.pc = .ended

instance (state : MqState) : Decidable state.LastThreadsDone :=
  inferInstanceAs (Decidable (_ ∧ _))

/-- Threads are created only when those of the last `open` are done. -/
def ReopensWhenDone (state : MqState) (label : MqLabel) : Prop :=
  state.Creates label → state.LastThreadsDone

instance (state : MqState) : DecidablePred state.ReopensWhenDone :=
  fun _ => inferInstanceAs (Decidable (_ → _))

/-! ## What a step can do -/

/-- The steps that are possible, with what each finds and leaves. -/
inductive Stepped (state : MqState) : MqLabel → MqState → Prop where
  | opens (outcome : OpenOutcome) (notClosing : ¬state.closing = true) :
      Stepped state (.open outcome) (state.openMq outcome)
  | checks (outcome : OpenOutcome) (notClosing : ¬state.closing = true)
      (connected : state.conn = .connected) :
      Stepped state (.check outcome) state
  | reopens (outcome : OpenOutcome) (notClosing : ¬state.closing = true)
      (notConnected : state.conn ≠ .connected) :
      Stepped state (.check outcome) (state.openMq outcome)
  | loses (connected : state.conn = .connected) :
      Stepped state .lose { state with conn := .closed }
  | closesNothing (notClosing : ¬state.closing = true)
      (isNull : state.conn = .null) : Stepped state .beginClose state
  | beginsClose (index : Nat) (decoder : Decoder)
      (notClosing : ¬state.closing = true)
      (present : state.decoders[index]? = some decoder) :
      Stepped state .beginClose
        { state with
          conn := .closed
          closing := true
          decoders :=
            state.decoders.set index { decoder with interrupted := true } }
  | endsClose (done : state.closing ∧ state.ThreadsEnded) :
      Stepped state .endClose
        { state with dcs := [], conn := .null, closing := false }
  | fetches (index : Nat) (present : state.readers[index]? = some .fetch) :
      Stepped state (.fetch index)
        { state with
          readers := state.readers.set index (.holding state.fetched)
          fetched := state.fetched + 1 }
  | failsFetch (index : Nat)
      (present : state.readers[index]? = some .fetch) :
      Stepped state (.failFetch index)
        { state with readers := state.readers.set index .leaving }
  | failsAcknowledge (index message : Nat)
      (present : state.readers[index]? = some (.holding message)) :
      Stepped state (.failAcknowledge index)
        { state with readers := state.readers.set index .leaving }
  | pushes (index message : Nat)
      (present : state.readers[index]? = some (.holding message)) :
      Stepped state (.push index)
        { state with
          readers := state.readers.set index .fetch
          dcs := state.dcs ++ [message] }
  | endsRead (index : Nat)
      (present : state.readers[index]? = some .leaving) :
      Stepped state (.endRead index)
        { state with
          readers := state.readers.set index .ended
          conn := state.conn.close }
  | takes (index message : Nat) (rest : List Nat) (interrupted : Bool)
      (present :
        state.decoders[index]? = some { pc := .taking, interrupted })
      (queue : state.dcs = message :: rest) :
      Stepped state (.take index)
        { state with
          decoders :=
            state.decoders.set index { pc := .holding message, interrupted }
          dcs := rest }
  | hands (index message : Nat) (parsed interrupted : Bool)
      (present :
        state.decoders[index]? =
          some { pc := .holding message, interrupted }) :
      Stepped state (.hand index parsed)
        { state with
          decoders := state.decoders.set index { pc := .taking, interrupted }
          handed := state.handOver message parsed }
  | raises (index message : Nat) (parsed interrupted : Bool)
      (present :
        state.decoders[index]? =
          some { pc := .holding message, interrupted }) :
      Stepped state (.raise index parsed)
        { state with
          decoders := state.decoders.set index { pc := .ended, interrupted }
          handed := state.handOver message parsed }
  | interrupts (index : Nat)
      (present :
        state.decoders[index]? =
          some { pc := .taking, interrupted := true }) :
      Stepped state (.interrupt index)
        { state with
          decoders :=
            state.decoders.set index { pc := .ended, interrupted := true } }

theorem stepped_of_step {state next : MqState} {label : MqLabel}
    (stepped : state.step label = some next) :
    Stepped state label next := by
  cases label with
  | «open» outcome =>
      simp only [step, Option.ite_none_left_eq_some,
        Option.some.injEq] at stepped
      obtain ⟨notClosing, rfl⟩ := stepped
      exact .opens outcome notClosing
  | check outcome =>
      simp only [step, Option.ite_none_left_eq_some] at stepped
      obtain ⟨notClosing, checked⟩ := stepped
      split at checked
      · rename_i connected
        obtain rfl := Option.some.inj checked
        exact .checks outcome notClosing connected
      · rename_i notConnected
        obtain rfl := Option.some.inj checked
        exact .reopens outcome notClosing notConnected
  | lose =>
      simp only [step, Option.ite_none_right_eq_some,
        Option.some.injEq] at stepped
      obtain ⟨connected, rfl⟩ := stepped
      exact .loses connected
  | beginClose =>
      simp only [step, Option.ite_none_left_eq_some] at stepped
      obtain ⟨notClosing, closes⟩ := stepped
      split at closes
      · rename_i isNull
        obtain rfl := Option.some.inj closes
        exact .closesNothing notClosing isNull
      · split at closes
        · rename_i index _ _
          obtain ⟨decoder, present, rfl⟩ := Option.map_eq_some_iff.mp closes
          exact .beginsClose index decoder notClosing present
        · cases closes
  | endClose =>
      simp only [step, Option.ite_none_right_eq_some,
        Option.some.injEq] at stepped
      obtain ⟨done, rfl⟩ := stepped
      exact .endsClose done
  | fetch index =>
      simp only [step] at stepped
      split at stepped
      · rename_i present
        obtain rfl := Option.some.inj stepped
        exact .fetches index present
      · cases stepped
  | failFetch index =>
      simp only [step] at stepped
      split at stepped
      · rename_i present
        obtain rfl := Option.some.inj stepped
        exact .failsFetch index present
      · cases stepped
  | failAcknowledge index =>
      simp only [step] at stepped
      split at stepped
      · rename_i message present
        obtain rfl := Option.some.inj stepped
        exact .failsAcknowledge index message present
      · cases stepped
  | push index =>
      simp only [step] at stepped
      split at stepped
      · rename_i message present
        obtain rfl := Option.some.inj stepped
        exact .pushes index message present
      · cases stepped
  | endRead index =>
      simp only [step] at stepped
      split at stepped
      · rename_i present
        obtain rfl := Option.some.inj stepped
        exact .endsRead index present
      · cases stepped
  | take index =>
      simp only [step] at stepped
      split at stepped
      · rename_i interrupted message rest present queue
        obtain rfl := Option.some.inj stepped
        exact .takes index message rest interrupted present queue
      · cases stepped
  | hand index parsed =>
      simp only [step] at stepped
      split at stepped
      · rename_i message interrupted present
        obtain rfl := Option.some.inj stepped
        exact .hands index message parsed interrupted present
      · cases stepped
  | raise index parsed =>
      simp only [step] at stepped
      split at stepped
      · rename_i message interrupted present
        obtain rfl := Option.some.inj stepped
        exact .raises index message parsed interrupted present
      · cases stepped
  | interrupt index =>
      simp only [step] at stepped
      split at stepped
      · rename_i present
        obtain rfl := Option.some.inj stepped
        exact .interrupts index present
      · cases stepped

/-- The moves that create no thread. -/
inductive Moved (state : MqState) : MqState → Prop where
  | control (conn : Connection) : Moved state { state with conn }
  | beginClose (index : Nat) (decoder : Decoder)
      (present : state.decoders[index]? = some decoder) :
      Moved state
        { state with
          conn := .closed
          closing := true
          decoders :=
            state.decoders.set index { decoder with interrupted := true } }
  | endClose :
      Moved state
        { state with dcs := [], conn := .null, closing := false }
  | fetch (index : Nat) (present : state.readers[index]? = some .fetch) :
      Moved state
        { state with
          readers := state.readers.set index (.holding state.fetched)
          fetched := state.fetched + 1 }
  | leave (index : Nat) (before : ReaderPc)
      (present : state.readers[index]? = some before)
      (reads : before.inLoop = true) :
      Moved state
        { state with readers := state.readers.set index .leaving }
  | endRead (index : Nat)
      (present : state.readers[index]? = some .leaving) :
      Moved state
        { state with
          readers := state.readers.set index .ended
          conn := state.conn.close }
  | push (index message : Nat)
      (present : state.readers[index]? = some (.holding message)) :
      Moved state
        { state with
          readers := state.readers.set index .fetch
          dcs := state.dcs ++ [message] }
  | take (index message : Nat) (rest : List Nat) (interrupted : Bool)
      (present :
        state.decoders[index]? = some { pc := .taking, interrupted })
      (queue : state.dcs = message :: rest) :
      Moved state
        { state with
          decoders :=
            state.decoders.set index { pc := .holding message, interrupted }
          dcs := rest }
  | hand (index message : Nat) (parsed interrupted : Bool)
      (after : DecoderPc)
      (present :
        state.decoders[index]? =
          some { pc := .holding message, interrupted })
      (nothingAfter :
        Decoder.message? { pc := after, interrupted } = none) :
      Moved state
        { state with
          decoders := state.decoders.set index { pc := after, interrupted }
          handed := state.handOver message parsed }
  | interrupt (index : Nat)
      (present :
        state.decoders[index]? =
          some { pc := .taking, interrupted := true }) :
      Moved state
        { state with
          decoders :=
            state.decoders.set index { pc := .ended, interrupted := true } }

theorem moved_of_openMq (state : MqState) {outcome : OpenOutcome}
    {label : MqLabel} (creates : outcome = .succeeds → state.Creates label) :
    (state.Creates label ∧ state.openMq outcome = state.opened) ∨
      Moved state (state.openMq outcome) := by
  cases outcome with
  | succeeds =>
      exact Or.inl ⟨creates rfl, rfl⟩
  | notConstructed =>
      exact Or.inr (Moved.control state.conn.close)
  | raises =>
      exact Or.inr (Moved.control .closed)

theorem moved_of_step {state next : MqState} {label : MqLabel}
    (stepped : state.step label = some next) :
    (state.Creates label ∧ next = state.opened) ∨ Moved state next := by
  cases stepped_of_step stepped with
  | opens outcome _ => exact moved_of_openMq state id
  | checks outcome _ _ => exact Or.inr (.control state.conn)
  | reopens outcome _ notConnected =>
      exact moved_of_openMq state fun succeeds => ⟨succeeds, notConnected⟩
  | loses _ => exact Or.inr (.control .closed)
  | closesNothing _ _ => exact Or.inr (.control state.conn)
  | beginsClose index decoder _ present =>
      exact Or.inr (.beginClose index decoder present)
  | endsClose _ => exact Or.inr .endClose
  | fetches index present => exact Or.inr (.fetch index present)
  | failsFetch index present =>
      exact Or.inr (.leave index .fetch present rfl)
  | failsAcknowledge index message present =>
      exact Or.inr (.leave index (.holding message) present rfl)
  | pushes index message present =>
      exact Or.inr (.push index message present)
  | endsRead index present => exact Or.inr (.endRead index present)
  | takes index message rest interrupted present queue =>
      exact Or.inr (.take index message rest interrupted present queue)
  | hands index message parsed interrupted present =>
      exact
        Or.inr (.hand index message parsed interrupted .taking present rfl)
  | raises index message parsed interrupted present =>
      exact
        Or.inr (.hand index message parsed interrupted .ended present rfl)
  | interrupts index present => exact Or.inr (.interrupt index present)

end MqState

end LocationServer

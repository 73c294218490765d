import LocationServer.Concurrency.QueueConservation
import LocationServer.Http.FormRequest
import LocationServer.Server.Startup
import LocationServer.TinyXml.Messages

/-!
# From the broker to the reply (`mq.cpp`, `server.cpp`, `http.cpp`)

`decodeThread` makes a record of each message and passes it to
`LocServer::update`; `HttpService` answers from the stores.  The reader, the
decoders, lost connections and new threads in between change nothing of what
the stores hold: as long as threads are created only when the reader and the
decoder before them are done, and nothing is dropped, the server is at every
moment the one that has taken in the first messages that decode, one after the
other.

`record` is what `parseMsg` makes of the message of each fetch.
-/

namespace LocationServer

open StepSystem

/-- The message queue in front of a server. -/
structure Pipeline where
  mq : MqState := {}
  server : LocServer

namespace Pipeline

/-- The message of a fetch gives a record. -/
def decodes (record : Nat → Option LocationDetail) (message : Nat) : Bool :=
  (record message).isSome

def step (record : Nat → Option LocationDetail) (state : Pipeline)
    (label : MqLabel) : Option Pipeline :=
  if state.mq.Decodes (decodes record) label then
    (state.mq.step label).map fun mq =>
      { mq
        server :=
          state.server.updateAll
            ((state.mq.passes label).filterMap record) }
  else none

/-- Threads are created only when those of the last `open` are done, and no
message that decodes is dropped. -/
def Reliable (record : Nat → Option LocationDetail) (state : Pipeline)
    (label : MqLabel) : Prop :=
  state.mq.ReopensWhenDone label ∧
    state.mq.DropsNothing (decodes record) label

instance (record : Nat → Option LocationDetail) (state : Pipeline) :
    DecidablePred (Reliable record state) :=
  fun _ => inferInstanceAs (Decidable (_ ∧ _))

section Step

variable {record : Nat → Option LocationDetail}
variable {state next : Pipeline} {label : MqLabel}

theorem stepped_of_step (stepped : state.step record label = some next) :
    state.mq.Decodes (decodes record) label ∧
      state.mq.step label = some next.mq ∧
        next.server =
          state.server.updateAll
            ((state.mq.passes label).filterMap record) := by
  simp only [step, Option.ite_none_right_eq_some] at stepped
  obtain ⟨lawful, moves⟩ := stepped
  obtain ⟨mq, moved, rfl⟩ := Option.map_eq_some_iff.mp moves
  exact ⟨lawful, moved, rfl⟩

/-- The server has taken in what has been handed over, and nothing has been
dropped. -/
structure Served (record : Nat → Option LocationDetail)
    (initial : LocServer) (state : Pipeline) : Prop where
  conserved : state.mq.Conserved (decodes record)
  applied :
    state.server = initial.updateAll (state.mq.handed.filterMap record)

theorem served_start (record : Nat → Option LocationDetail)
    (initial : LocServer) : Served record initial { server := initial } where
  conserved := MqState.conserved_start _
  applied := rfl

theorem served_of_step {initial : LocServer}
    (served : Served record initial state)
    (reliable : state.Reliable record label)
    (stepped : state.step record label = some next) :
    Served record initial next := by
  obtain ⟨lawful, moved, server⟩ := stepped_of_step stepped
  constructor
  · exact
      MqState.conserved_of_step served.conserved lawful reliable.1
        reliable.2 moved
  · have handed := (MqState.delivers_of_step moved).handed
    rw [server, served.applied, handed, List.filterMap_append,
      LocServer.updateAll, LocServer.updateAll, LocServer.updateAll,
      List.foldl_append]

theorem filterMap_filter_decodes (messages : List Nat) :
    (messages.filter (decodes record)).filterMap record =
      messages.filterMap record := by
  rw [List.filterMap_filter]
  congr 1
  funext message
  rw [decodes]
  cases record message <;> rfl

/-- The records of the fetched messages are those that the server has taken in
and those on the way. -/
theorem Served.records_eq {initial : LocServer}
    (served : Served record initial state) :
    (List.range state.mq.fetched).filterMap record =
      state.mq.handed.filterMap record ++
        state.mq.onTheWay.filterMap record := by
  have messages := served.conserved.handed_append
  rw [← filterMap_filter_decodes, ← messages, List.filterMap_append,
    filterMap_filter_decodes]

end Step

/-! ## Runs -/

section Runs

variable {record : Nat → Option LocationDetail} {server : LocServer}
variable {final : Pipeline} {labels : List MqLabel}

theorem served_of_run
    (reliable :
      Along (step record) (Reliable record) { server } labels)
    (execution : run (step record) { server } labels = some final) :
    Served record server final :=
  invariant_of_along
    (fun _ _ _ served reliable stepped =>
      served_of_step served reliable stepped)
    (served_start record server) reliable execution

/-- In every reliable run, the server is the one that has taken in the records
of the fetched messages one after the other, but for those on the way. -/
theorem server_is_sequential
    (reliable :
      Along (step record) (Reliable record) { server } labels)
    (execution : run (step record) { server } labels = some final) :
    ∃ taken,
      final.server = server.updateAll taken ∧
        (List.range final.mq.fetched).filterMap record =
          taken ++ final.mq.onTheWay.filterMap record := by
  have served := served_of_run reliable execution
  exact
    ⟨final.mq.handed.filterMap record, served.applied, served.records_eq⟩

/-- When nothing is on the way, every record has been taken in. -/
theorem server_of_arrived
    (reliable :
      Along (step record) (Reliable record) { server } labels)
    (execution : run (step record) { server } labels = some final)
    (arrived : final.mq.onTheWay = []) :
    final.server =
      server.updateAll
        ((List.range final.mq.fetched).filterMap record) := by
  have served := served_of_run reliable execution
  have records := served.records_eq
  rw [arrived, List.filterMap_nil, List.append_nil] at records
  rw [records]
  exact served.applied

end Runs

/-! ## Requests -/

/-- The last record of a device among the first `count` messages. -/
theorem lastFor_of_last {record : Nat → Option LocationDetail}
    {loc : LocationDetail} {message count : Nat}
    (decoded : record message = some loc) (earlier : message < count)
    (isLast :
      ∀ later, message < later → later < count →
        ∀ other, record later = some other → other.devId ≠ loc.devId) :
    lastFor loc.devId ((List.range count).filterMap record) = some loc := by
  have split :
      List.range count =
        List.range message ++
          message :: List.range' (message + 1) (count - message - 1) := by
    rw [List.range_eq_range', List.range_eq_range', ← List.range'_succ]
    have sum : count = message + (count - message - 1 + 1) := by omega
    conv_lhs => rw [sum]
    rw [← List.range'_append_1, Nat.zero_add]
  rw [split, List.filterMap_append, List.filterMap_cons, decoded]
  refine Journal.last_eq_some_iff.mpr
    ⟨((List.range message).filterMap record).map
        fun loc => (loc.devId, loc), _, List.map_append, ?_⟩
  intro entry member
  obtain ⟨other, inside, rfl⟩ := List.mem_map.mp member
  obtain ⟨later, isLater, isOther⟩ := List.mem_filterMap.mp inside
  obtain ⟨after, before⟩ := List.mem_range'_1.mp isLater
  exact isLast later (by omega) (by omega) other isOther

/-- A message passes, the queue is closed and opened again, and another message
is taken. -/
def reopenedLabels : List MqLabel :=
  [.open .succeeds, .fetch 0, .push 0, .take 0, .hand 0 true, .beginClose,
    .failFetch 0, .endRead 0, .interrupt 0, .endClose, .open .succeeds,
    .fetch 1, .push 1, .take 1]

/-- The record of `sampleMessage`, fetched again and again. -/
def sampleRecord (_ : Nat) : Option LocationDetail :=
  run (parseChild decimalCast) (newLocationDetail {})
    (childElements sampleMessage.children)

theorem server_is_sequential_reopened :
    ∃ (final : Pipeline) (taken : List LocationDetail),
      final.server = ({} : LocServer).updateAll taken ∧
        taken.length = 1 := by
  obtain ⟨final, execution, fetched, held⟩ :
      ∃ final,
        run (step sampleRecord) { server := {} } reopenedLabels =
            some final ∧
          final.mq.fetched = 2 ∧ final.mq.onTheWay = [1] :=
    ⟨outcome (step sampleRecord) { server := {} } reopenedLabels
        (by decide +kernel),
      run_eq_outcome _ _ _, by decide +kernel, by decide +kernel⟩
  obtain ⟨taken, sequential, records⟩ :=
    server_is_sequential (by decide +kernel) execution
  have lengths := congrArg List.length records
  rw [fetched, held, List.length_append] at lengths
  have both : ((List.range 2).filterMap sampleRecord).length = 2 := by
    decide +kernel
  have one : (([1] : List Nat).filterMap sampleRecord).length = 1 := by
    decide +kernel
  exact ⟨final, taken, sequential, by omega⟩

def sampleField : FormField where
  name := "DEV_ID".toList
  raw := "%37".toList
  value := ['7']
  isName := by decide
  spells := .escaped '3' '7' 3 7 rfl rfl .nil
  fits := by decide
  isText := by decide

end Pipeline

end LocationServer

import LocationServer.Foundation.WriteBehind
import LocationServer.Sync.Recovery

/-!
# One generation of the server after the other

A server is started on what its predecessors have left in the tables, takes in
records and writes them in the background, and ends at any time, in the middle
of a batch too; neither `exec` nor a signal handler writes what is waiting
then.  Seen from `whereis`, all generations together are one store that saves
behind its writes.

The records come one after the other, from one decoder.  The time between two
steps of `sync2db` belongs to the updates.
-/

namespace LocationServer

open StepSystem WriteBehind

/-- A running server and, while a `sync` is in progress, the rest of its
batch. -/
structure Running where
  server : LocServer
  batch : Option (List LocationDetail) := none

structure Deployment where
  running : Option Running := none
  db : Mongo := {}

inductive DeploymentLabel where
  | start (conf : PlainConfig) (surroundings : Surroundings)
  | update (loc : LocationDetail)
  | sync (label : SyncLabel)
  | halt

namespace Running

/-- What `sync` sees of a server. -/
def syncState (running : Running) (db : Mongo) : SyncState where
  syncer := running.server.syncer
  db := db
  batch := running.batch

/-- The records that are not written yet. -/
def waiting (running : Running) : List LocationDetail :=
  running.batch.getD [] ++ running.server.syncer.locs

end Running

namespace Deployment

def step (cast : LexicalCast) (state : Deployment) :
    DeploymentLabel → Option Deployment
  | .start conf surroundings =>
      match state.running with
      | some _ => none
      | none =>
          some
            { state with
              running :=
                (LocServer.init cast conf state.db surroundings).map
                  fun server => { server } }
  | .update loc =>
      state.running.map fun running =>
        { state with
          running :=
            some { running with server := running.server.update loc true } }
  | .sync label =>
      state.running.bind fun running =>
        if label.passed?.isSome then none
        else
          ((running.syncState state.db).step label).map fun next =>
            { running :=
                some
                  { server := { running.server with syncer := next.syncer }
                    batch := next.batch }
              db := next.db }
  | .halt => state.running.map fun _ => { state with running := none }

/-- `whereis`, while a server is running. -/
def whereis (state : Deployment) (devId : DeviceId) :
    Option LocationDetail :=
  state.running.bind fun running => running.server.pool.whereis devId

def waiting (state : Deployment) : List LocationDetail :=
  (state.running.map Running.waiting).getD []

/-! ## The store behind it -/

/-- The entry of a record. -/
def filed (loc : LocationDetail) : DeviceId × LocationDetail :=
  (loc.devId, loc)

/-- What a step does to the store: a record that raises is given up with the
rest of its batch, but only after it was saved when the history is what fails.
-/
def operations (cast : LexicalCast) (state : Deployment) :
    DeploymentLabel → List (Operation DeviceId LocationDetail)
  | .start conf surroundings =>
      match LocServer.init cast conf state.db surroundings with
      | some _ => [.restart]
      | none => [.stop]
  | .update loc =>
      match state.running with
      | some running =>
          [.put loc.devId loc (running.server.props.dbsync ≠ 0)]
      | none => []
  | .sync (.record faults) =>
      match state.running.bind Running.batch with
      | some (_ :: rest) =>
          if faults.find || faults.store then [.skip (rest.length + 1)]
          else if faults.log then [.save, .skip rest.length]
          else [.save]
      | _ => []
  | .sync _ => []
  | .halt => [.stop]

/-- The operations of a run. -/
def traced (cast : LexicalCast) :
    Deployment → List DeploymentLabel →
      List (Operation DeviceId LocationDetail)
  | _, [] => []
  | state, label :: rest =>
      state.operations cast label ++
        match state.step cast label with
        | some next => traced cast next rest
        | none => []

/-- The memory, the snapshot table and the queue are those of the store. -/
structure Refines (state : Deployment)
    (store : Store DeviceId LocationDetail) : Prop where
  live : ∀ devId, state.whereis devId = store.live devId
  saved :
    ∃ written,
      state.db.table1 =
          (Journal.upsertAll LocationDetail.devId written).map
            encodeLocation ∧
        ∀ devId, lastFor devId written = store.saved devId
  waiting : store.waiting = state.waiting.map filed

theorem refines_start : Refines {} {} where
  live := fun _ => rfl
  saved := ⟨[], rfl, fun _ => rfl⟩
  waiting := rfl

/-! ## One step -/

/-- What becomes of a record, by the first operation on it that raises. -/
theorem syncRecord_eq (faults : RecordFaults) (db : Mongo)
    (loc : LocationDetail) :
    syncRecord faults db loc =
      if faults.find || faults.store then (false, db)
      else if faults.log then (false, db.storeSnapshot loc)
      else (true, (db.storeSnapshot loc).insert2 (encodeLocation loc)) := by
  rcases faults with ⟨find, store, log⟩
  cases found : db.findOne loc.devId.toInt64 <;> cases find <;>
    cases store <;> cases log <;>
    simp [syncRecord, Mongo.storeSnapshot, found]

/-- A started server has no record to write. -/
theorem locs_of_init {cast : LexicalCast} {conf : PlainConfig} {db : Mongo}
    {surroundings : Surroundings} {server : LocServer}
    (started : LocServer.init cast conf db surroundings = some server) :
    server.syncer.locs = [] := by
  simp only [LocServer.init, Option.bind_eq_bind, Option.bind_eq_some_iff,
    Option.pure_def, Option.some.injEq] at started
  obtain ⟨configured, configures, opened, opens, props, reads, rfl⟩ :=
    started
  simp only [LocServer.configure, Option.bind_eq_bind,
    Option.bind_eq_some_iff, Option.pure_def, Option.some.injEq]
    at configures
  obtain ⟨maxregion, -, rfl⟩ := configures
  rw [DBSyncer.openDb, DBSyncer.prepare, accepted] at opens
  split at opens
  · split at opens
    · cases opens
      rw [loadLoop_snd]
      induction loadedRecords surroundings.cursorFault db.table1
        using List.reverseRecOn with
      | nil => rfl
      | append_singleton earlier loc inductionHypothesis =>
          rw [List.foldl_append]
          exact inductionHypothesis
    · cases opens
  · cases opens

theorem loadedRecords_encoded (rows : List LocationDetail) :
    loadedRecords none (rows.map encodeLocation) =
      rows.map LocationDetail.reloaded := by
  induction rows with
  | nil => rfl
  | cons row rest inductionHypothesis =>
      simp only [List.map_cons, loadedRecords, decodeLocation_encodeLocation]
      exact congrArg _ inductionHypothesis

/-- A started server answers with what was saved. -/
theorem whereis_of_init {cast : LexicalCast} {conf : PlainConfig}
    {db : Mongo} {surroundings : Surroundings} {server : LocServer}
    (started : LocServer.init cast conf db surroundings = some server)
    (unfaulted : surroundings.cursorFault = none)
    {written : List LocationDetail}
    (table :
      db.table1 =
        (Journal.upsertAll LocationDetail.devId written).map
          encodeLocation)
    (devId : DeviceId) :
    server.pool.whereis devId =
      (lastFor devId written).map LocationDetail.reloaded := by
  obtain ⟨props, -, -, isPool⟩ := LocServer.init_eq_some started
  rw [isPool, unfaulted, table, loadedRecords_encoded,
    AOPool.whereis_foldl_update, AOPool.whereis_empty, Option.or_none,
    lastFor_reloaded]

variable {cast : LexicalCast} {state next : Deployment}
variable {store : Store DeviceId LocationDetail}

/-- A write is saved. -/
theorem saved_of_stored (refines : Refines state store)
    (loc : LocationDetail) {db : Mongo}
    (table : db.table1 = (state.db.storeSnapshot loc).table1) :
    ∃ written,
      db.table1 =
          (Journal.upsertAll LocationDetail.devId written).map
            encodeLocation ∧
        ∀ devId, lastFor devId written =
          Function.update store.saved loc.devId (some loc) devId := by
  obtain ⟨written, isTable, isSaved⟩ := refines.saved
  refine ⟨written ++ [loc], ?_, ?_⟩
  · rw [table, table1_storeSnapshot isTable, Journal.upsertAll_concat]
  · intro devId
    rw [update_eq_or, lastFor, List.map_append, Journal.last_append,
      ← isSaved]
    rfl

/-- A step of the queue or of `sync2db` leaves the memory alone. -/
theorem whereis_of_synced {running : Running}
    (isRunning : state.running = some running) (syncer : DBSyncer)
    (batch : Option (List LocationDetail)) (db : Mongo) :
    whereis
        { running := some { server := { running.server with syncer }, batch }
          db } =
      state.whereis := by
  funext devId
  rw [whereis, whereis, isRunning]
  rfl

theorem refines_of_record (refines : Refines state store)
    {running : Running} (isRunning : state.running = some running)
    {loc : LocationDetail} {rest : List LocationDetail}
    (busy : running.batch = some (loc :: rest)) (faults : RecordFaults)
    (stepped : state.step cast (.sync (.record faults)) = some next) :
    Refines next
      (store.applyAll LocationDetail.reloaded
        (state.operations cast (.sync (.record faults)))) := by
  have waits :
      store.waiting =
        filed loc :: (rest ++ running.server.syncer.locs).map filed := by
    rw [refines.waiting, waiting, isRunning, Option.map_some,
      Option.getD_some, Running.waiting, busy, Option.getD_some]
    rfl
  have rested :
      (store.waiting.drop (rest.length + 1)) =
        running.server.syncer.locs.map filed := by
    rw [waits, List.drop_succ_cons, List.map_append]
    exact List.drop_left' (List.length_map _)
  have live := refines.live
  simp only [operations, isRunning, Option.bind_some, busy]
  simp only [step, isRunning, Option.bind_some, SyncLabel.passed?,
    Option.isSome_none, Bool.false_eq_true, if_false, Running.syncState,
    SyncState.step, busy, syncRecord_eq] at stepped
  by_cases early : (faults.find || faults.store) = true
  · simp only [early, if_true, Option.map_some, Option.some.injEq] at stepped
    rw [if_pos early, ← stepped]
    refine ⟨?_, refines.saved, rested⟩
    rw [whereis_of_synced isRunning]
    exact live
  · rw [if_neg early] at stepped ⊢
    by_cases late : faults.log = true
    · simp only [late, if_true, Option.map_some, Option.some.injEq]
        at stepped
      rw [if_pos late, ← stepped]
      simp only [Store.applyAll, List.foldl_cons, List.foldl_nil,
        Store.apply, waits, filed]
      refine ⟨?_, saved_of_stored refines loc rfl, ?_⟩
      · rw [whereis_of_synced isRunning]
        exact live
      · rw [waits] at rested
        exact rested
    · simp only [late, Bool.false_eq_true, if_false, Option.map_some,
        Option.some.injEq] at stepped
      rw [if_neg late, ← stepped]
      simp only [Store.applyAll, List.foldl_cons, List.foldl_nil,
        Store.apply, waits, filed]
      refine ⟨?_, saved_of_stored refines loc rfl, rfl⟩
      rw [whereis_of_synced isRunning]
      exact live

theorem sync_eq_some {label : SyncLabel}
    (stepped : state.step cast (.sync label) = some next) :
    ∃ running synced,
      state.running = some running ∧ label.passed? = none ∧
        (running.syncState state.db).step label = some synced ∧
        next =
          { running :=
              some
                { server := { running.server with syncer := synced.syncer }
                  batch := synced.batch }
            db := synced.db } := by
  obtain ⟨running, isRunning, moves⟩ := Option.bind_eq_some_iff.mp stepped
  split at moves
  · cases moves
  · rename_i notPassed
    obtain ⟨synced, moved, isNext⟩ := Option.map_eq_some_iff.mp moves
    exact ⟨running, synced, isRunning, by simpa using notPassed, moved,
      isNext.symm⟩

theorem refines_of_sync (refines : Refines state store) {label : SyncLabel}
    (stepped : state.step cast (.sync label) = some next) :
    Refines next
      (store.applyAll LocationDetail.reloaded
        (state.operations cast (.sync label))) := by
  obtain ⟨running, synced, isRunning, notPassed, moves, rfl⟩ :=
    sync_eq_some stepped
  have waits := refines.waiting
  rw [waiting, isRunning, Option.map_some, Option.getD_some,
    Running.waiting] at waits
  rcases SyncState.step_cases moves with
    ⟨loc, rfl, -⟩ | ⟨force, rfl, idle, rfl⟩ |
    ⟨faults, loc, rest, rfl, busy, -⟩ |
    ⟨faults, loc, rest, db, rfl, busy, -⟩ | ⟨rfl, busy, rfl⟩
  · cases notPassed
  · change running.batch = none at idle
    refine ⟨?_, refines.saved, ?_⟩
    · rw [whereis_of_synced isRunning]
      exact refines.live
    · have moved := takeBatch_append running.server.syncer force
      rw [idle, Option.getD_none, List.nil_append, ← moved] at waits
      exact waits
  · exact refines_of_record refines isRunning busy faults stepped
  · exact refines_of_record refines isRunning busy faults stepped
  · change running.batch = some [] at busy
    refine ⟨?_, refines.saved, ?_⟩
    · rw [whereis_of_synced isRunning]
      exact refines.live
    · rw [busy] at waits
      exact waits

/-- A start reads the whole snapshot. -/
def ReadsAll : DeploymentLabel → Prop
  | .start _ surroundings => surroundings.cursorFault = none
  | _ => True

theorem refines_of_step (refines : Refines state store)
    {label : DeploymentLabel} (readsAll : ReadsAll label)
    (stepped : state.step cast label = some next) :
    Refines next
      (store.applyAll LocationDetail.reloaded
        (state.operations cast label)) := by
  cases label with
  | start conf surroundings =>
      cases isRunning : state.running with
      | some running => simp [step, isRunning] at stepped
      | none =>
          simp only [step, isRunning, Option.some.injEq] at stepped
          rw [← stepped, operations]
          cases started : LocServer.init cast conf state.db surroundings with
          | none => exact ⟨fun _ => rfl, refines.saved, rfl⟩
          | some server =>
              obtain ⟨written, table, isSaved⟩ := refines.saved
              refine ⟨?_, refines.saved, ?_⟩
              · intro devId
                change server.pool.whereis devId =
                  (store.saved devId).map LocationDetail.reloaded
                rw [← isSaved]
                exact whereis_of_init started readsAll table devId
              · change [] = server.syncer.locs.map filed
                rw [locs_of_init started]
                rfl
  | update loc =>
      obtain ⟨running, isRunning, isNext⟩ :=
        Option.map_eq_some_iff.mp stepped
      rw [← isNext]
      simp only [operations, isRunning]
      refine ⟨?_, refines.saved, ?_⟩
      · intro devId
        have before := refines.live devId
        rw [whereis, isRunning] at before
        change (running.server.pool.update loc).whereis devId =
          Function.update store.live loc.devId (some loc) devId
        rw [AOPool.whereis_update]
        by_cases here : loc.devId = devId
        · rw [if_pos here, here, Function.update_self]
        · rw [if_neg here, Function.update_of_ne (Ne.symm here)]
          exact before
      · have before := refines.waiting
        rw [waiting, isRunning] at before
        by_cases syncs : running.server.props.dbsync = 0
        · simpa [Store.applyAll, Store.apply, waiting, Running.waiting,
            LocServer.update, syncs] using before
        · simp only [Store.applyAll, List.foldl_cons, List.foldl_nil,
            Store.apply, syncs, ne_eq, not_false_eq_true, decide_true,
            if_true, before]
          simp [waiting, Running.waiting, LocServer.update, syncs,
            DBSyncer.update, filed]
  | sync label => exact refines_of_sync refines stepped
  | halt =>
      obtain ⟨running, -, isNext⟩ := Option.map_eq_some_iff.mp stepped
      rw [← isNext]
      exact ⟨fun _ => rfl, refines.saved, rfl⟩

/-! ## Runs -/

theorem traced_cons {label : DeploymentLabel}
    (stepped : state.step cast label = some next)
    (rest : List DeploymentLabel) :
    traced cast state (label :: rest) =
      state.operations cast label ++ traced cast next rest := by
  rw [traced, stepped]

theorem traced_append {older younger : List DeploymentLabel}
    {middle : Deployment}
    (execution : run (step cast) state older = some middle) :
    traced cast state (older ++ younger) =
      traced cast state older ++ traced cast middle younger := by
  induction older generalizing state with
  | nil =>
      cases execution
      rfl
  | cons label rest inductionHypothesis =>
      obtain ⟨next, stepped, continued⟩ :=
        run_cons_eq_some_iff.mp execution
      rw [List.cons_append, traced_cons stepped, traced_cons stepped,
        inductionHypothesis continued, List.append_assoc]

theorem refines_of_run {labels : List DeploymentLabel} {final : Deployment}
    (refines : Refines state store)
    (readAll : ∀ label ∈ labels, ReadsAll label)
    (execution : run (step cast) state labels = some final) :
    Refines final
      (store.applyAll LocationDetail.reloaded (traced cast state labels)) := by
  induction labels generalizing state store with
  | nil =>
      cases execution
      exact refines
  | cons label rest inductionHypothesis =>
      rw [List.forall_mem_cons] at readAll
      obtain ⟨next, stepped, continued⟩ :=
        run_cons_eq_some_iff.mp execution
      rw [traced_cons stepped, applyAll_append]
      exact
        inductionHypothesis (refines_of_step refines readAll.1 stepped)
          readAll.2 continued

/-- Whatever the generations do, as long as each start reads the whole
snapshot, `whereis` answers as the store that saves behind its writes, and the
snapshot table and the queue are those of the store: also when operations on
the tables raise and when a server ends in the middle of a batch. -/
theorem generations_refine_store {labels : List DeploymentLabel}
    {final : Deployment}
    (execution : run (step cast) {} labels = some final)
    (readAll : ∀ label ∈ labels, ReadsAll label) :
    Refines final
      (Store.applyAll LocationDetail.reloaded {} (traced cast {} labels)) :=
  refines_of_run refines_start readAll execution

/-! ## Generations that lose nothing -/

/-- The records of the updates in a run. -/
def updates (labels : List DeploymentLabel) : List LocationDetail :=
  labels.filterMap fun label =>
    match label with
    | .update loc => some loc
    | _ => none

/-- A server is started or ends. -/
def Ends : DeploymentLabel → Prop
  | .start _ _ => True
  | .halt => True
  | _ => False

/-- No operation on the tables raises, the records are to be written, and a
server ends only when all of them are. -/
def Quiet (state : Deployment) : DeploymentLabel → Prop
  | .start _ surroundings => surroundings.cursorFault = none
  | .update _ =>
      ∀ running ∈ state.running, running.server.props.dbsync ≠ 0
  | .sync label => label.raises = false
  | .halt => state.waiting = []

instance (state : Deployment) : DecidablePred state.Quiet
  | .start _ _ => inferInstanceAs (Decidable (_ = _))
  | .update _ => inferInstanceAs (Decidable (∀ running ∈ _, _))
  | .sync _ => inferInstanceAs (Decidable (_ = _))
  | .halt => inferInstanceAs (Decidable (_ = _))

theorem readsAll_of_quiet {label : DeploymentLabel}
    (quiet : state.Quiet label) : ReadsAll label := by
  cases label with
  | start conf surroundings => exact quiet
  | update loc => trivial
  | sync label => trivial
  | halt => trivial

theorem keepsAll_of_quiet (refines : Refines state store)
    {label : DeploymentLabel} (quiet : state.Quiet label)
    (stepped : state.step cast label = some next) :
    store.KeepsAll LocationDetail.reloaded
      (state.operations cast label) := by
  cases label with
  | start conf surroundings =>
      have nothingWaits : store.waiting = [] := by
        cases isRunning : state.running with
        | some running => simp [step, isRunning] at stepped
        | none =>
            rw [refines.waiting, waiting, isRunning]
            rfl
      rw [operations]
      split
      · exact ⟨nothingWaits, trivial⟩
      · exact ⟨nothingWaits, trivial⟩
  | update loc =>
      obtain ⟨running, isRunning, -⟩ := Option.map_eq_some_iff.mp stepped
      simp only [operations, isRunning]
      exact ⟨decide_eq_true (quiet running isRunning), trivial⟩
  | sync label =>
      cases label with
      | record faults =>
          have noFault : faults.raises = false := quiet
          simp only [RecordFaults.raises, Bool.or_eq_false_iff] at noFault
          rw [operations]
          split
          · rw [noFault.1.1, noFault.1.2, noFault.2]
            exact ⟨trivial, trivial⟩
          · trivial
      | update loc => trivial
      | swap force => trivial
      | finish => trivial
  | halt =>
      refine ⟨?_, trivial⟩
      rw [Store.Keeps, refines.waiting, show state.waiting = [] from quiet]
      rfl

theorem readsAll_of_along {labels : List DeploymentLabel}
    {final : Deployment} (quiet : Along (step cast) Quiet state labels)
    (execution : run (step cast) state labels = some final) :
    ∀ label ∈ labels, ReadsAll label := by
  induction labels generalizing state with
  | nil =>
      intro label member
      cases member
  | cons label rest inductionHypothesis =>
      obtain ⟨next, stepped, continued⟩ :=
        run_cons_eq_some_iff.mp execution
      exact
        List.forall_mem_cons.mpr
          ⟨readsAll_of_quiet quiet.1,
            inductionHypothesis (quiet.2 next stepped) continued⟩

theorem keepsAll_of_run {labels : List DeploymentLabel}
    {final : Deployment} (refines : Refines state store)
    (quiet : Along (step cast) Quiet state labels)
    (execution : run (step cast) state labels = some final) :
    store.KeepsAll LocationDetail.reloaded (traced cast state labels) := by
  induction labels generalizing state store with
  | nil => trivial
  | cons label rest inductionHypothesis =>
      obtain ⟨next, stepped, continued⟩ :=
        run_cons_eq_some_iff.mp execution
      rw [traced_cons stepped, keepsAll_append]
      exact
        ⟨keepsAll_of_quiet refines quiet.1 stepped,
          inductionHypothesis
            (refines_of_step refines (readsAll_of_quiet quiet.1) stepped)
            (quiet.2 next stepped) continued⟩

theorem puts_operations {label : DeploymentLabel}
    (stepped : state.step cast label = some next) :
    puts (state.operations cast label) = (updates [label]).map filed := by
  cases label with
  | start conf surroundings =>
      rw [operations]
      split <;> rfl
  | update loc =>
      obtain ⟨running, isRunning, -⟩ := Option.map_eq_some_iff.mp stepped
      simp only [operations, isRunning]
      rfl
  | sync label =>
      cases label with
      | record faults =>
          rw [operations]
          split
          · split
            · rfl
            · split <;> rfl
          · rfl
      | update loc => rfl
      | swap force => rfl
      | finish => rfl
  | halt => rfl

/-- The writes of the store are the updates of the run. -/
theorem puts_traced {labels : List DeploymentLabel} {final : Deployment}
    (execution : run (step cast) state labels = some final) :
    puts (traced cast state labels) = (updates labels).map filed := by
  induction labels generalizing state with
  | nil => rfl
  | cons label rest inductionHypothesis =>
      obtain ⟨next, stepped, continued⟩ :=
        run_cons_eq_some_iff.mp execution
      rw [traced_cons stepped, puts_append, inductionHypothesis continued,
        puts_operations stepped, ← List.map_append, updates, updates,
        ← List.filterMap_append]
      rfl

theorem noEnd_traced {labels : List DeploymentLabel}
    {final : Deployment} (noEnd : ∀ label ∈ labels, ¬Ends label)
    (execution : run (step cast) state labels = some final) :
    ∀ operation ∈ traced cast state labels, ¬operation.Ends := by
  induction labels generalizing state with
  | nil =>
      intro operation member
      cases member
  | cons label rest inductionHypothesis =>
      rw [List.forall_mem_cons] at noEnd
      obtain ⟨next, stepped, continued⟩ :=
        run_cons_eq_some_iff.mp execution
      rw [traced_cons stepped, List.forall_mem_append]
      refine ⟨?_, inductionHypothesis noEnd.2 continued⟩
      cases label with
      | start conf surroundings => exact absurd trivial noEnd.1
      | halt => exact absurd trivial noEnd.1
      | update loc =>
          rw [operations]
          split <;> simp [Operation.Ends]
      | sync label =>
          cases label with
          | record faults =>
              rw [operations]
              split
              · split
                · simp [Operation.Ends]
                · split <;> simp [Operation.Ends]
              · simp
          | update loc => simp [operations]
          | swap force => simp [operations]
          | finish => simp [operations]

/-- What is stopped stays so until a start. -/
theorem stopped_of_run {labels : List DeploymentLabel}
    {final : Deployment} (noEnd : ∀ label ∈ labels, ¬Ends label)
    (stopped : state.running = none)
    (execution : run (step cast) state labels = some final) :
    final.running = none := by
  cases labels with
  | nil =>
      cases execution
      exact stopped
  | cons label rest =>
      rw [List.forall_mem_cons] at noEnd
      obtain ⟨next, stepped, -⟩ := run_cons_eq_some_iff.mp execution
      cases label with
      | start conf surroundings => exact absurd trivial noEnd.1
      | update loc => simp [step, stopped] at stepped
      | sync label => simp [step, stopped] at stepped
      | halt => exact absurd trivial noEnd.1

/-- When no operation on the tables raises and no server ends before its
records are written, the running server answers for every device with the last
record that any generation has taken in: the very record, or, from before the
last start, the record as the snapshot gives it back. -/
theorem whereis_across_generations {earlier later : List DeploymentLabel}
    {conf : PlainConfig} {surroundings : Surroundings} {final : Deployment}
    (execution :
      run (step cast) {} (earlier ++ .start conf surroundings :: later) =
        some final)
    (quiet :
      Along (step cast) Quiet {}
        (earlier ++ .start conf surroundings :: later))
    (noEnd : ∀ label ∈ later, ¬Ends label)
    (isRunning : final.running ≠ none) (devId : DeviceId) :
    final.whereis devId =
      (lastFor devId (updates later)).or
        ((lastFor devId (updates earlier)).map LocationDetail.reloaded) := by
  obtain ⟨middle, ran, restarted⟩ := run_append_eq_some_iff.mp execution
  obtain ⟨started, stepped, continued⟩ :=
    run_cons_eq_some_iff.mp restarted
  have starts :
      middle.operations cast (.start conf surroundings) = [.restart] := by
    cases init : LocServer.init cast conf middle.db surroundings with
    | some server => simp only [operations, init]
    | none =>
        have stopped : started.running = none := by
          cases wasRunning : middle.running with
          | some running => simp [step, wasRunning] at stepped
          | none =>
              simp only [step, wasRunning, init, Option.map_none,
                Option.some.injEq] at stepped
              rw [← stepped]
        exact absurd (stopped_of_run noEnd stopped continued) isRunning
  have isTraced :
      traced cast {} (earlier ++ .start conf surroundings :: later) =
        traced cast {} earlier ++ .restart :: traced cast started later := by
    rw [traced_append ran, traced_cons stepped, starts]
    rfl
  have keeps := keepsAll_of_run refines_start quiet execution
  have refines :=
    refines_of_run refines_start (readsAll_of_along quiet execution)
      execution
  rw [isTraced] at keeps refines
  rw [refines.live,
    live_of_restarted keeps (noEnd_traced noEnd continued),
    puts_traced continued, puts_traced ran]
  rfl

/-- A server that takes in two records, writes both, and is followed by one
that takes in a third. -/
def twoGenerations : List DeploymentLabel :=
  [.start {} {}, .update (sampleLocation 2000 70 10),
    .sync (.swap true), .update (sampleLocation 2001 71 10),
    .sync (.record {}), .sync .finish, .sync (.swap true),
    .sync (.record {}), .sync .finish, .halt]

theorem whereis_across_generations_two :
    ∃ final,
      run (step decimalCast) {}
          (twoGenerations ++ .start {} {} ::
            [.update (sampleLocation 2000 72 10)]) =
        some final ∧
        ∀ devId, final.whereis devId =
          (lastFor devId (updates [.update (sampleLocation 2000 72 10)])).or
            ((lastFor devId (updates twoGenerations)).map
              LocationDetail.reloaded) := by
  obtain ⟨final, execution, isRunning⟩ :
      ∃ final,
        run (step decimalCast) {}
            (twoGenerations ++ .start {} {} ::
              [.update (sampleLocation 2000 72 10)]) =
          some final ∧ final.running.isSome = true :=
    ⟨outcome (step decimalCast) {} _ (by decide +kernel),
      run_eq_outcome _ _ _, by decide +kernel⟩
  refine ⟨final, execution, ?_⟩
  exact
    whereis_across_generations execution (by decide +kernel)
      (by simp [Ends]) (Option.isSome_iff_ne_none.mp isRunning)

/-- The history fails for the first of two records, and the server ends with a
third one in the queue. -/
def faultedGeneration : List DeploymentLabel :=
  [.start {} {}, .update (sampleLocation 2000 70 10),
    .update (sampleLocation 2001 70 10), .sync (.swap true),
    .sync (.record { log := true }), .update (sampleLocation 2002 70 10),
    .halt, .start {} {}]

theorem generations_refine_store_faulted :
    ∃ final,
      run (step decimalCast) {} faultedGeneration = some final ∧
        (final.whereis 2000).isSome = true ∧ final.whereis 2001 = none ∧
          Refines final
            (Store.applyAll LocationDetail.reloaded {}
              (traced decimalCast {} faultedGeneration)) := by
  obtain ⟨final, execution, first, second⟩ :
      ∃ final,
        run (step decimalCast) {} faultedGeneration = some final ∧
          (final.whereis 2000).isSome = true ∧
            final.whereis 2001 = none :=
    ⟨outcome (step decimalCast) {} _ (by decide +kernel),
      run_eq_outcome _ _ _, by decide +kernel, by decide +kernel⟩
  refine ⟨final, execution, first, second, ?_⟩
  exact
    generations_refine_store execution
      (by simp [faultedGeneration, ReadsAll])

end Deployment

end LocationServer

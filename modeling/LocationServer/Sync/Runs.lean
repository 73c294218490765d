import LocationServer.Foundation.StepSystem
import LocationServer.Sync

/-!
# Runs of the synchroniser

`sync` runs in the timer thread, `update` in the threads that receive records.
They share the queue only, which `sync` empties in one locked step before it
turns to the database.  A step of a run is one `update`, the queue swap of a
`sync`, one record of its batch, or the end of its loop; the operations on one
record need no finer step, since only the timer thread touches the tables.
-/

namespace LocationServer

open StepSystem

/-- The synchroniser, the tables and, while a `sync` is in progress, the rest
of its batch. -/
structure SyncState where
  syncer : DBSyncer := {}
  db : Mongo := {}
  batch : Option (List LocationDetail) := none
  deriving DecidableEq, Repr

inductive SyncLabel where
  | update (loc : LocationDetail)
  | swap (force : Bool)
  | record (faults : RecordFaults)
  | finish
  deriving DecidableEq, Repr

/-- Some database operation of the step raises. -/
def SyncLabel.raises : SyncLabel → Bool
  | .record faults => faults.raises
  | _ => false

/-- The record a step passes to `DBSyncer::update`. -/
def SyncLabel.passed? : SyncLabel → Option LocationDetail
  | .update loc => some loc
  | _ => none

/-- The records passed to `DBSyncer::update` in a run, oldest first. -/
def passed (labels : List SyncLabel) : List LocationDetail :=
  labels.filterMap SyncLabel.passed?

@[simp]
theorem passed_concat (labels : List SyncLabel) (label : SyncLabel) :
    passed (labels ++ [label]) = passed labels ++ label.passed?.toList := by
  rw [passed, passed, List.filterMap_append]
  cases label <;> rfl

namespace SyncState

/-- The records taken in and neither written nor given up. -/
def pending (state : SyncState) : List LocationDetail :=
  state.batch.getD [] ++ state.syncer.locs

def step (state : SyncState) : SyncLabel → Option SyncState
  | .update loc => some { state with syncer := state.syncer.update loc }
  | .swap force =>
      match state.batch with
      | none =>
          let (batch, syncer) := state.syncer.takeBatch force
          some { state with syncer, batch := some batch }
      | some _ => none
  | .record faults =>
      match state.batch with
      | some (loc :: rest) =>
          match syncRecord faults state.db loc with
          | (true, db) =>
              some
                { syncer :=
                    { state.syncer with
                      syncSuccNum := state.syncer.syncSuccNum + 1 }
                  db, batch := some rest }
          | (false, db) =>
              some
                { syncer :=
                    { state.syncer with
                      syncErrorNum := state.syncer.syncErrorNum + 1 }
                  db, batch := none }
      | _ => none
  | .finish =>
      match state.batch with
      | some [] => some { state with batch := none }
      | _ => none

end SyncState

/-! ## One record -/

/-- The snapshot half of a record: insert or replace. -/
def Mongo.storeSnapshot (db : Mongo) (loc : LocationDetail) : Mongo :=
  match db.findOne loc.devId.toInt64 with
  | none => db.insert1 (encodeLocation loc)
  | some _ => db.update1 loc.devId.toInt64 (encodeLocation loc)

@[simp]
theorem Mongo.table2_storeSnapshot (db : Mongo) (loc : LocationDetail) :
    (db.storeSnapshot loc).table2 = db.table2 := by
  rw [Mongo.storeSnapshot]
  cases db.findOne loc.devId.toInt64 <;> rfl

theorem syncRecord_of_quiet {faults : RecordFaults}
    (quiet : faults.raises = false) (db : Mongo) (loc : LocationDetail) :
    syncRecord faults db loc =
      (true, (db.storeSnapshot loc).insert2 (encodeLocation loc)) := by
  simp only [RecordFaults.raises, Bool.or_eq_false_iff] at quiet
  cases found : db.findOne loc.devId.toInt64 <;>
    simp [syncRecord, Mongo.storeSnapshot, found, quiet]

/-- A record with a fault is not logged; at most its snapshot is stored. -/
theorem syncRecord_of_raises {faults : RecordFaults}
    (raises : faults.raises = true) (db : Mongo) (loc : LocationDetail) :
    syncRecord faults db loc = (false, db) ∨
      syncRecord faults db loc = (false, db.storeSnapshot loc) := by
  rcases faults with ⟨find, store, log⟩
  cases find with
  | true =>
      exact Or.inl rfl
  | false =>
      cases store with
      | true =>
          exact Or.inl rfl
      | false =>
          have logRaises : log = true := by
            simpa [RecordFaults.raises] using raises
          subst logRaises
          right
          cases found : db.findOne loc.devId.toInt64 <;>
            simp [syncRecord, Mongo.storeSnapshot, found]

/-- The swap moves the queue, whole or not at all. -/
theorem takeBatch_append (syncer : DBSyncer) (force : Bool) :
    (syncer.takeBatch force).1 ++ (syncer.takeBatch force).2.locs =
      syncer.locs := by
  rw [DBSyncer.takeBatch]
  split <;> simp

/-! ## What a step can do -/

namespace SyncState

theorem step_cases {state next : SyncState} {label : SyncLabel}
    (stepped : state.step label = some next) :
    (∃ loc, label = .update loc ∧
        next = { state with syncer := state.syncer.update loc }) ∨
      (∃ force, label = .swap force ∧ state.batch = none ∧
        next =
          { state with
            syncer := (state.syncer.takeBatch force).2
            batch := some (state.syncer.takeBatch force).1 }) ∨
      (∃ faults loc rest, label = .record faults ∧
        state.batch = some (loc :: rest) ∧ faults.raises = false ∧
        next =
          { syncer :=
              { state.syncer with
                syncSuccNum := state.syncer.syncSuccNum + 1 }
            db := (state.db.storeSnapshot loc).insert2 (encodeLocation loc)
            batch := some rest }) ∨
      (∃ faults loc rest db, label = .record faults ∧
        state.batch = some (loc :: rest) ∧ faults.raises = true ∧
        (db = state.db ∨ db = state.db.storeSnapshot loc) ∧
        next =
          { syncer :=
              { state.syncer with
                syncErrorNum := state.syncer.syncErrorNum + 1 }
            db, batch := none }) ∨
      (label = .finish ∧ state.batch = some [] ∧
        next = { state with batch := none }) := by
  cases label with
  | update loc =>
      exact Or.inl ⟨loc, rfl, (Option.some.inj stepped).symm⟩
  | swap force =>
      right; left
      cases idle : state.batch with
      | some batch =>
          simp [step, idle] at stepped
      | none =>
          simp only [step, idle, Option.some.injEq] at stepped
          exact ⟨force, rfl, rfl, stepped.symm⟩
  | record faults =>
      right; right
      match busy : state.batch with
      | none => simp [step, busy] at stepped
      | some [] => simp [step, busy] at stepped
      | some (loc :: rest) =>
          cases raises : faults.raises with
          | false =>
              simp only [step, busy, syncRecord_of_quiet raises,
                Option.some.injEq] at stepped
              exact Or.inl ⟨faults, loc, rest, rfl, rfl, raises,
                stepped.symm⟩
          | true =>
              right; left
              rcases syncRecord_of_raises raises state.db loc with
                outcome | outcome
              all_goals
                simp only [step, busy, outcome, Option.some.injEq] at stepped
              · exact ⟨faults, loc, rest, _, rfl, rfl, raises, Or.inl rfl,
                  stepped.symm⟩
              · exact ⟨faults, loc, rest, _, rfl, rfl, raises, Or.inr rfl,
                  stepped.symm⟩
  | finish =>
      right; right; right; right
      match busy : state.batch with
      | none => simp [step, busy] at stepped
      | some (loc :: rest) => simp [step, busy] at stepped
      | some [] =>
          simp only [step, busy, Option.some.injEq] at stepped
          exact ⟨rfl, rfl, stepped.symm⟩

end SyncState

/-! ## A call of `sync` as a run -/

/-- The loop of `sync2db` is a run over the records of its batch. -/
theorem run_sync2db (syncer : DBSyncer) (db : Mongo)
    (entries : List (LocationDetail × RecordFaults)) :
    ∃ labels,
      run SyncState.step
          { syncer, db, batch := some (entries.map Prod.fst) } labels =
        some
          { syncer := (syncer.sync2db db entries).2.1
            db := (syncer.sync2db db entries).2.2 } := by
  induction entries generalizing syncer db with
  | nil =>
      exact ⟨[.finish], rfl⟩
  | cons entry rest inductionHypothesis =>
      rcases entry with ⟨loc, faults⟩
      rcases outcome : syncRecord faults db loc with ⟨written, after⟩
      cases written with
      | true =>
          obtain ⟨labels, continued⟩ :=
            inductionHypothesis
              { syncer with syncSuccNum := syncer.syncSuccNum + 1 } after
          refine ⟨.record faults :: labels, ?_⟩
          rw [run_cons_eq_some_iff]
          simp only [DBSyncer.sync2db, outcome]
          exact ⟨_, by simp [SyncState.step, outcome], continued⟩
      | false =>
          refine ⟨[.record faults], ?_⟩
          rw [run_cons_eq_some_iff]
          simp only [DBSyncer.sync2db, outcome]
          exact ⟨_, by simp [SyncState.step, outcome], rfl⟩

/-- A call of `sync` that nothing interrupts is a run of the small steps. -/
theorem run_sync (syncer : DBSyncer) (db : Mongo) (force : Bool)
    (faults : Nat → RecordFaults) :
    ∃ labels,
      run SyncState.step { syncer, db } (.swap force :: labels) =
        some
          { syncer := (syncer.sync db force faults).1
            db := (syncer.sync db force faults).2 } := by
  obtain ⟨labels, continued⟩ :=
    run_sync2db (syncer.takeBatch force).2 db
      ((syncer.takeBatch force).1.mapIdx fun position loc =>
        (loc, faults position))
  have batch :
      ((syncer.takeBatch force).1.mapIdx fun position loc =>
          (loc, faults position)).map Prod.fst =
        (syncer.takeBatch force).1 := by
    apply List.ext_getElem <;> simp
  rw [batch] at continued
  exact
    ⟨labels, run_cons_eq_some_iff.mpr
      ⟨{ syncer := (syncer.takeBatch force).2, db,
         batch := some (syncer.takeBatch force).1 }, rfl, continued⟩⟩

end LocationServer

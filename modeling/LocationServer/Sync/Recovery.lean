import LocationServer.Foundation.Journal
import LocationServer.Server.Startup
import LocationServer.Sync.Runs

/-!
# What the tables hold and what a restart reads back

Without a fault the snapshot is a table with one row for each device, the
history a log, and a fresh server that loads the snapshot knows every device
that was ever reported.
-/

namespace LocationServer

open StepSystem

/-! ## Documents -/

/-- What a record looks like after it was stored and loaded: only the group ids
go through a text. -/
def LocationDetail.reloaded (loc : LocationDetail) : LocationDetail :=
  { loc with groupIds := decodeGroupIds (encodeGroupIds loc.groupIds) }

theorem hasDevId_encodeLocation (loc : LocationDetail) (devId : UniqueId) :
    (encodeLocation loc).hasDevId devId.toInt64 =
      decide (loc.devId = devId) := by
  have sameId : loc.devId.toInt64 = devId.toInt64 ↔ loc.devId = devId := by
    constructor
    · intro equal
      have := congrArg Int64.toUInt64 equal
      simpa using this
    · intro equal
      rw [equal]
  simp [BSONObj.hasDevId, BSONObj.getField, encodeLocation, sameId]

/-- A stored document always loads. -/
@[simp]
theorem decodeLocation_encodeLocation (loc : LocationDetail) :
    decodeLocation (encodeLocation loc) = some loc.reloaded := by
  simp [decodeLocation, encodeLocation, LocationDetail.reloaded,
    BSONObj.getField, BSONObj.getStringField, List.lookup_cons,
    BSONElement.long, BSONElement.number]

/-! ## The snapshot as a keyed table -/

theorem replaceFirst_map_encodeLocation (loc : LocationDetail)
    (rows : List LocationDetail)
    (present :
      (rows.map encodeLocation).find?
        (BSONObj.hasDevId loc.devId.toInt64) ≠ none) :
    replaceFirst (BSONObj.hasDevId loc.devId.toInt64)
        (encodeLocation loc) (rows.map encodeLocation) =
      (Journal.upsert LocationDetail.devId loc rows).map encodeLocation := by
  induction rows with
  | nil =>
      exact absurd rfl present
  | cons row rest inductionHypothesis =>
      rw [List.map_cons, replaceFirst, Journal.upsert,
        hasDevId_encodeLocation]
      by_cases sameDevice : row.devId = loc.devId
      · simp [sameDevice]
      · rw [List.map_cons, List.find?_cons, hasDevId_encodeLocation] at present
        simp only [sameDevice, decide_false, Bool.false_eq_true,
          if_false, List.map_cons] at present ⊢
        rw [inductionHypothesis present]

theorem upsert_of_absent (loc : LocationDetail)
    (rows : List LocationDetail)
    (absent :
      (rows.map encodeLocation).find?
        (BSONObj.hasDevId loc.devId.toInt64) = none) :
    Journal.upsert LocationDetail.devId loc rows = rows ++ [loc] := by
  induction rows with
  | nil =>
      rfl
  | cons row rest inductionHypothesis =>
      rw [List.map_cons, List.find?_cons, hasDevId_encodeLocation] at absent
      by_cases sameDevice : row.devId = loc.devId
      · simp [sameDevice] at absent
      · simp only [sameDevice, decide_false] at absent
        rw [Journal.upsert, if_neg sameDevice, inductionHypothesis absent]
        rfl

/-- Looking a device up and inserting or replacing is an upsert. -/
theorem table1_storeSnapshot {db : Mongo} {rows : List LocationDetail}
    (table : db.table1 = rows.map encodeLocation) (loc : LocationDetail) :
    (db.storeSnapshot loc).table1 =
      (Journal.upsert LocationDetail.devId loc rows).map encodeLocation := by
  rw [Mongo.storeSnapshot, Mongo.findOne, table]
  cases found :
      (rows.map encodeLocation).find?
        (BSONObj.hasDevId loc.devId.toInt64) with
  | none =>
      simp [Mongo.insert1, table, upsert_of_absent loc rows found]
  | some document =>
      simp only [Mongo.update1, table]
      exact
        replaceFirst_map_encodeLocation loc rows (by simp [found])

/-! ## Runs without a fault -/

/-- The tables are those of a list of written records, which with the pending
ones is everything passed in, in order. -/
def Mirrored (labels : List SyncLabel) (state : SyncState) : Prop :=
  ∃ written,
    passed labels = written ++ state.pending ∧
      state.db.table1 =
        (Journal.upsertAll LocationDetail.devId written).map
          encodeLocation ∧
      state.db.table2 = written.map encodeLocation

theorem mirrored_step {labels : List SyncLabel} {state next : SyncState}
    {label : SyncLabel}
    (mirrored : Mirrored labels state)
    (quiet : label.raises = false)
    (stepped : state.step label = some next) :
    Mirrored (labels ++ [label]) next := by
  obtain ⟨written, order, table1, table2⟩ := mirrored
  rcases SyncState.step_cases stepped with
    ⟨loc, rfl, rfl⟩ | ⟨force, rfl, idle, rfl⟩ |
    ⟨faults, loc, rest, rfl, busy, -, rfl⟩ |
    ⟨faults, loc, rest, db, rfl, busy, raises, -, rfl⟩ |
    ⟨rfl, busy, rfl⟩
  · refine ⟨written, ?_, table1, table2⟩
    simp [order, SyncLabel.passed?, SyncState.pending, DBSyncer.update]
  · refine ⟨written, ?_, table1, table2⟩
    have moved := takeBatch_append state.syncer force
    simp [order, SyncLabel.passed?, SyncState.pending, idle, moved]
  · refine ⟨written ++ [loc], ?_, ?_, ?_⟩
    · simp [order, SyncLabel.passed?, SyncState.pending, busy]
    · rw [Journal.upsertAll_concat]
      exact table1_storeSnapshot table1 loc
    · simp [Mongo.insert2, table2]
  · exact absurd raises (by simpa [SyncLabel.raises] using quiet)
  · refine ⟨written, ?_, table1, table2⟩
    simp [order, SyncLabel.passed?, SyncState.pending, busy]

theorem mirrored_run {syncer : DBSyncer} (emptyQueue : syncer.locs = [])
    {labels : List SyncLabel} {final : SyncState}
    (execution : run SyncState.step { syncer } labels = some final)
    (quiet : ∀ label ∈ labels, label.raises = false) :
    Mirrored labels final := by
  refine
    @history_invariant SyncState SyncLabel SyncState.step
      (fun labels state =>
        (∀ label ∈ labels, label.raises = false) → Mirrored labels state)
      ?_ { syncer } final labels ?_ execution quiet
  · intro labels state label next mirrored stepped quiet
    rw [List.forall_mem_append, List.forall_mem_singleton] at quiet
    exact mirrored_step (mirrored quiet.1) quiet.2 stepped
  · intro _
    exact ⟨[], by simp [passed, SyncState.pending, emptyQueue], rfl, rfl⟩

/-! ## Loading -/

theorem loadLoop_encoded {Server : Type}
    (update : Server → LocationDetail → Server) (server : Server)
    (rows : List LocationDetail) :
    DBSyncer.loadLoop update server none (rows.map encodeLocation) =
      (true, (rows.map LocationDetail.reloaded).foldl update server) := by
  induction rows generalizing server with
  | nil =>
      rfl
  | cons row rest inductionHypothesis =>
      simp only [List.map_cons, DBSyncer.loadLoop,
        decodeLocation_encodeLocation]
      exact inductionHypothesis (update server row.reloaded)

/-- What the tables of a list of records hold and give back. -/
structure Recoverable (records : List LocationDetail) (db : Mongo) :
    Prop where
  /-- One snapshot document for each device, that of its last record. -/
  snapshot :
    ∃ rows : List LocationDetail,
      db.table1 = rows.map encodeLocation ∧
        (rows.map LocationDetail.devId).Nodup ∧
        ∀ loc, loc ∈ rows ↔ lastFor loc.devId records = some loc
  /-- One history document for each record, in order. -/
  history : db.table2 = records.map encodeLocation
  /-- The loading loop makes one call for each snapshot document. -/
  calls :
    ∃ calls : List LocationDetail,
      DBSyncer.prepare (fun calls loc => calls ++ [loc]) [] db none =
          (true, calls) ∧
        db.table1.map decodeLocation = calls.map some
  /-- A fresh server that loads the snapshot knows the last record of every
  device. -/
  found :
    ∀ fresh : LocServer, fresh.pool = AOPool.empty → ∀ devId,
      (DBSyncer.prepare (fun server loc => server.update loc false) fresh db
          none).2.pool.whereis devId =
        (lastFor devId records).map LocationDetail.reloaded

theorem mem_upsertAll_iff {records : List LocationDetail}
    {loc : LocationDetail} :
    loc ∈ Journal.upsertAll LocationDetail.devId records ↔
      lastFor loc.devId records = some loc := by
  constructor
  · exact Journal.last_of_mem_upsertAll
  · intro isLast
    rw [lastFor, ← Journal.find?_upsertAll] at isLast
    exact List.mem_of_find?_eq_some isLast

/-- The last reloaded row of a device is the last record of the device,
reloaded. -/
theorem lastFor_reloaded (records : List LocationDetail)
    (devId : UniqueId) :
    lastFor devId
        ((Journal.upsertAll LocationDetail.devId records).map
          LocationDetail.reloaded) =
      (lastFor devId records).map LocationDetail.reloaded := by
  rw [lastFor, lastFor,
    ← @Journal.last_upsertAll _ _ _ LocationDetail.devId records,
    List.map_map, ← Journal.last_map_value, List.map_map]
  rfl

theorem recoverable_of_mirrored {labels : List SyncLabel}
    {state : SyncState} (mirrored : Mirrored labels state)
    (nothingPending : state.pending = []) :
    Recoverable (passed labels) state.db := by
  obtain ⟨written, order, table1, table2⟩ := mirrored
  rw [nothingPending, List.append_nil] at order
  rw [order]
  let rows := Journal.upsertAll LocationDetail.devId written
  refine ⟨⟨rows, table1, Journal.upsertAll_keys_nodup written,
    fun loc => mem_upsertAll_iff⟩, table2,
    ⟨rows.map LocationDetail.reloaded, ?_, ?_⟩, ?_⟩
  · rw [DBSyncer.prepare, table1, loadLoop_encoded,
      List.foldl_append_eq_append, ← List.flatMap_def,
      List.flatMap_singleton', List.nil_append]
  · simp [table1, rows]
  · intro fresh emptyPool devId
    rw [DBSyncer.prepare, table1, loadLoop_encoded,
      LocServer.pool_foldl_update, AOPool.whereis_foldl_update, emptyPool,
      AOPool.whereis_empty, Option.or_none, lastFor_reloaded]

/-- Whatever the order of updates and checks, the tables of a run without a
fault are recoverable once nothing is pending. -/
theorem restart_recovers {syncer : DBSyncer}
    (emptyQueue : syncer.locs = [])
    {labels : List SyncLabel} {final : SyncState}
    (execution : run SyncState.step { syncer } labels = some final)
    (quiet : ∀ label ∈ labels, label.raises = false)
    (nothingPending : final.pending = []) :
    Recoverable (passed labels) final.db :=
  recoverable_of_mirrored (mirrored_run emptyQueue execution quiet)
    nothingPending

/-- Two devices, one of which reports again while the first batch is being
written. -/
theorem restart_recovers_two_devices :
    Recoverable
      [sampleLocation 2000 10 70, sampleLocation 2001 10 70,
        sampleLocation 2000 11 70]
      { table1 :=
          [encodeLocation (sampleLocation 2000 11 70),
            encodeLocation (sampleLocation 2001 10 70)]
        table2 :=
          [encodeLocation (sampleLocation 2000 10 70),
            encodeLocation (sampleLocation 2001 10 70),
            encodeLocation (sampleLocation 2000 11 70)] } :=
  @restart_recovers { syncwater := 20 } rfl
    [.update (sampleLocation 2000 10 70),
      .update (sampleLocation 2001 10 70), .swap true, .record {},
      .update (sampleLocation 2000 11 70), .record {}, .finish,
      .swap true, .record {}, .finish]
    { syncer := { syncwater := 20, syncSuccNum := 3 }
      db := _ }
    (by decide +kernel) (by decide) rfl

end LocationServer

import LocationServer.Sync.Recovery

/-!
# Do the snapshot and the history agree?

`sync2db` first stores a record in the snapshot and then appends it to the
history.  When the second operation raises, the first is not undone and the
record is not tried again, so that the snapshot is ahead of the history until
the device reports the next time.
-/

namespace LocationServer

open StepSystem

/-- The last history document of a device. -/
def Mongo.lastLogged (db : Mongo) (devId : Int64) : Option BSONObj :=
  (db.table2.filter (BSONObj.hasDevId devId)).getLast?

/-- Each snapshot document is the last one logged for its device. -/
def Mongo.HistoryAgrees (db : Mongo) : Prop :=
  ∀ (devId : Int64), ∀ document ∈ db.table1,
    document.hasDevId devId = true →
      db.lastLogged devId = some document

/-- If the step stores a snapshot that it then fails to log, the history
already ends, for that device, with the same values. -/
def SyncState.LogsSnapshot (state : SyncState) : SyncLabel → Prop
  | .record faults =>
      ∀ loc ∈ (state.batch.getD []).head?,
        faults.find = false → faults.store = false → faults.log = true →
          state.db.lastLogged loc.devId.toInt64 = some (encodeLocation loc)
  | _ => True

instance (state : SyncState) : DecidablePred state.LogsSnapshot
  | .record _ => inferInstanceAs (Decidable (∀ loc ∈ _, _))
  | .update _ => inferInstanceAs (Decidable True)
  | .swap _ => inferInstanceAs (Decidable True)
  | .finish => inferInstanceAs (Decidable True)

/-! ## One record -/

theorem lastLogged_insert2 (db : Mongo) (loc : LocationDetail)
    (devId : UniqueId) :
    (db.insert2 (encodeLocation loc)).lastLogged devId.toInt64 =
      if loc.devId = devId then some (encodeLocation loc)
      else db.lastLogged devId.toInt64 := by
  by_cases sameDevice : loc.devId = devId
  · simp [Mongo.lastLogged, Mongo.insert2, List.filter_append,
      hasDevId_encodeLocation, sameDevice]
  · simp [Mongo.lastLogged, Mongo.insert2, List.filter_append,
      hasDevId_encodeLocation, sameDevice]

/-- The snapshot holds encoded records, one for each device. -/
def Keyed (db : Mongo) (rows : List LocationDetail) : Prop :=
  db.table1 = rows.map encodeLocation ∧
    (rows.map LocationDetail.devId).Nodup

theorem keyed_storeSnapshot {db : Mongo} {rows : List LocationDetail}
    (keyed : Keyed db rows) (loc : LocationDetail) :
    Keyed (db.storeSnapshot loc)
      (Journal.upsert LocationDetail.devId loc rows) :=
  ⟨table1_storeSnapshot keyed.1 loc,
    Journal.upsert_keys_nodup loc keyed.2⟩

theorem historyAgrees_iff {db : Mongo} {rows : List LocationDetail}
    (keyed : Keyed db rows) :
    db.HistoryAgrees ↔
      ∀ row ∈ rows,
        db.lastLogged row.devId.toInt64 = some (encodeLocation row) := by
  rw [Mongo.HistoryAgrees, keyed.1]
  constructor
  · intro agrees row member
    refine agrees row.devId.toInt64 (encodeLocation row)
      (List.mem_map_of_mem member) ?_
    simp [hasDevId_encodeLocation]
  · intro logged devId document member ofDevice
    obtain ⟨row, rowMember, rfl⟩ := List.mem_map.mp member
    have unsigned : devId = devId.toUInt64.toInt64 := by simp
    rw [unsigned, hasDevId_encodeLocation, decide_eq_true_eq] at ofDevice
    rw [unsigned, ← ofDevice]
    exact logged row rowMember

/-- Storing a snapshot keeps the tables in agreement exactly when the history
already ends with it. -/
theorem historyAgrees_storeSnapshot_iff {db : Mongo}
    {rows : List LocationDetail} (keyed : Keyed db rows)
    (agrees : db.HistoryAgrees) (loc : LocationDetail) :
    (db.storeSnapshot loc).HistoryAgrees ↔
      db.lastLogged loc.devId.toInt64 = some (encodeLocation loc) := by
  rw [historyAgrees_iff (keyed_storeSnapshot keyed loc)]
  rw [historyAgrees_iff keyed] at agrees
  have sameLog :
      ∀ devId,
        (db.storeSnapshot loc).lastLogged devId = db.lastLogged devId := by
    intro devId
    rw [Mongo.lastLogged, Mongo.lastLogged, Mongo.table2_storeSnapshot]
  simp only [sameLog, Journal.mem_upsert_iff loc keyed.2]
  constructor
  · intro logged
    exact logged loc (Or.inl rfl)
  · intro logged row member
    rcases member with isLoc | ⟨older, -⟩
    · rw [isLoc]
      exact logged
    · exact agrees row older

/-- A record that is stored and logged keeps the tables in agreement. -/
theorem historyAgrees_stored_logged {db : Mongo}
    {rows : List LocationDetail} (keyed : Keyed db rows)
    (agrees : db.HistoryAgrees) (loc : LocationDetail) :
    ((db.storeSnapshot loc).insert2
      (encodeLocation loc)).HistoryAgrees := by
  rw [historyAgrees_iff keyed] at agrees
  have stored :
      Keyed ((db.storeSnapshot loc).insert2 (encodeLocation loc))
        (Journal.upsert LocationDetail.devId loc rows) :=
    keyed_storeSnapshot keyed loc
  apply (historyAgrees_iff stored).mpr
  intro row member
  rw [lastLogged_insert2]
  rcases (Journal.mem_upsert_iff loc keyed.2).mp member with
    isLoc | ⟨older, otherDevice⟩
  · rw [isLoc, if_pos rfl]
  · rw [if_neg (Ne.symm otherDevice), Mongo.lastLogged,
      Mongo.table2_storeSnapshot]
    exact agrees row older

/-! ## Runs -/

/-- Whatever raises, the snapshot stays a keyed table. -/
def SyncState.Tabled (state : SyncState) : Prop :=
  ∃ rows, Keyed state.db rows

theorem tabled_step {state next : SyncState} {label : SyncLabel}
    (tabled : state.Tabled) (stepped : state.step label = some next) :
    next.Tabled := by
  obtain ⟨rows, keyed⟩ := tabled
  rcases SyncState.step_cases stepped with
    ⟨loc, rfl, rfl⟩ | ⟨force, rfl, idle, rfl⟩ |
    ⟨faults, loc, rest, rfl, busy, quiet, rfl⟩ |
    ⟨faults, loc, rest, db, rfl, busy, raises, tables, rfl⟩ |
    ⟨rfl, busy, rfl⟩
  · exact ⟨rows, keyed⟩
  · exact ⟨rows, keyed⟩
  · exact ⟨_, keyed_storeSnapshot keyed loc⟩
  · rcases tables with rfl | rfl
    · exact ⟨rows, keyed⟩
    · exact ⟨_, keyed_storeSnapshot keyed loc⟩
  · exact ⟨rows, keyed⟩

/-- What a record with a fault leaves behind. -/
theorem syncRecord_of_fault (faults : RecordFaults) (db : Mongo)
    (loc : LocationDetail) (raises : faults.raises = true) :
    syncRecord faults db loc =
      if faults.find = false ∧ faults.store = false then
        (false, db.storeSnapshot loc)
      else (false, db) := by
  rcases faults with ⟨find, store, log⟩
  cases find <;> cases store <;>
    cases found : db.findOne loc.devId.toInt64 <;>
      simp_all [syncRecord, Mongo.storeSnapshot, RecordFaults.raises]

theorem db_of_step {state next : SyncState} {label : SyncLabel}
    (noRecord : ∀ faults, label ≠ .record faults)
    (stepped : state.step label = some next) : next.db = state.db := by
  rcases SyncState.step_cases stepped with
    ⟨loc, rfl, rfl⟩ | ⟨force, rfl, idle, rfl⟩ |
    ⟨faults, loc, rest, rfl, busy, quiet, rfl⟩ |
    ⟨faults, loc, rest, db, rfl, busy, raises, tables, rfl⟩ |
    ⟨rfl, busy, rfl⟩
  · rfl
  · rfl
  · exact absurd rfl (noRecord faults)
  · exact absurd rfl (noRecord faults)
  · rfl

theorem historyAgrees_step_iff {state next : SyncState}
    {label : SyncLabel} (tabled : state.Tabled)
    (agrees : state.db.HistoryAgrees)
    (stepped : state.step label = some next) :
    next.db.HistoryAgrees ↔ state.LogsSnapshot label := by
  obtain ⟨rows, keyed⟩ := tabled
  cases label with
  | update loc =>
      rw [db_of_step (by simp) stepped]
      exact iff_of_true agrees trivial
  | swap force =>
      rw [db_of_step (by simp) stepped]
      exact iff_of_true agrees trivial
  | finish =>
      rw [db_of_step (by simp) stepped]
      exact iff_of_true agrees trivial
  | record faults =>
      match busy : state.batch with
      | none => simp [SyncState.step, busy] at stepped
      | some [] => simp [SyncState.step, busy] at stepped
      | some (loc :: rest) =>
          simp only [SyncState.LogsSnapshot, busy, Option.getD_some,
            List.head?_cons, Option.mem_some_iff, forall_eq']
          cases raises : faults.raises with
          | false =>
              simp only [SyncState.step, busy, syncRecord_of_quiet raises,
                Option.some.injEq] at stepped
              rw [← stepped]
              simp only [RecordFaults.raises,
                Bool.or_eq_false_iff] at raises
              refine iff_of_true ?_ (by simp [raises])
              exact historyAgrees_stored_logged keyed agrees loc
          | true =>
              have outcome := syncRecord_of_fault faults state.db loc raises
              by_cases stores : faults.find = false ∧ faults.store = false
              · have logRaises : faults.log = true := by
                  simpa [RecordFaults.raises, stores] using raises
                rw [if_pos stores] at outcome
                simp only [SyncState.step, busy, outcome,
                  Option.some.injEq] at stepped
                rw [← stepped, historyAgrees_storeSnapshot_iff keyed agrees]
                simp [stores, logRaises]
              · rw [if_neg stores] at outcome
                simp only [SyncState.step, busy, outcome,
                  Option.some.injEq] at stepped
                rw [← stepped]
                refine iff_of_true agrees ?_
                intro noFind noStore
                exact absurd ⟨noFind, noStore⟩ stores

/-- In a run from empty tables the history never falls behind the snapshot
exactly when every step that stores a snapshot and then fails to log it finds
the same values logged last. -/
theorem historyAgrees_always_iff {syncer : DBSyncer}
    {labels : List SyncLabel} {final : SyncState}
    (execution : run SyncState.step { syncer } labels = some final) :
    Always SyncState.step (fun state => state.db.HistoryAgrees)
        { syncer } labels ↔
      Along SyncState.step SyncState.LogsSnapshot { syncer } labels :=
  always_iff_along
    (fun _ _ _ tabled stepped => tabled_step tabled stepped)
    (fun _ _ _ tabled agrees stepped =>
      historyAgrees_step_iff tabled agrees stepped)
    ⟨[], rfl, List.nodup_nil⟩ (by simp [Mongo.HistoryAgrees])
    execution

/-- A look-up that raises between two records of a device. -/
theorem historyAgrees_despite_failed_lookup :
    Always SyncState.step (fun state => state.db.HistoryAgrees) {}
      [.update (sampleLocation 2000 10 70), .swap true, .record {}, .finish,
        .update (sampleLocation 2000 (101 / 10) 70), .swap true,
        .record { find := true },
        .update (sampleLocation 2000 (102 / 10) 70), .swap true,
        .record {}] :=
  (historyAgrees_always_iff
    (run_eq_outcome _ _ (by decide +kernel))).mpr (by decide +kernel)

/-- The insertion into the history raises after the snapshot was stored. -/
theorem unlogged_snapshot_diverges :
    ¬ Always SyncState.step (fun state => state.db.HistoryAgrees) {}
      [.update (sampleLocation 2000 10 70), .swap true,
        .record { log := true }] := by
  intro always
  have agrees :=
    always _ [] _ (List.append_nil _).symm
      (run_eq_outcome _ _ (by decide +kernel))
  exact
    absurd
      (agrees (2000 : UInt64).toInt64
        (encodeLocation (sampleLocation 2000 10 70))
        (by decide +kernel) (by decide +kernel))
      (by decide +kernel)

end LocationServer

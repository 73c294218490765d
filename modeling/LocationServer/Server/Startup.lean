import LocationServer.Grid.Records
import LocationServer.Server

/-!
# A started server and its runs

The start loads the decodable part of the snapshot under the built-in grid and
installs the configured grid afterwards.  Every slot of the grid and every
entry of the pool is then described by one journal: the loaded records, placed
by the built-in grid, followed by the updates, placed by the configured one.
-/

namespace LocationServer

variable {K : Type} [∀ n, OfNat K n]

/-- The records that the snapshot loop passes to `LocServer::update`: those of
the documents before the first failure. -/
def loadedRecords [IntCast K] :
    CursorFault → List (BSONObj K) → List (LocationDetail K)
  | some 0, _ => []
  | _, [] => []
  | fault, obj :: rest =>
      match decodeLocation obj with
      | none => []
      | some loc => loc :: loadedRecords (fault.map (· - 1)) rest

theorem loadLoop_snd {Server : Type} [IntCast K]
    (update : Server → LocationDetail K → Server) (server : Server)
    (fault : CursorFault) (docs : List (BSONObj K)) :
    (DBSyncer.loadLoop update server fault docs).2 =
      (loadedRecords fault docs).foldl update server := by
  induction docs generalizing server fault with
  | nil =>
      cases fault with
      | none => rfl
      | some count => cases count <;> rfl
  | cons obj rest inductionHypothesis =>
      cases fault with
      | none =>
          simp only [DBSyncer.loadLoop, loadedRecords]
          cases decodeLocation obj with
          | none => rfl
          | some loc => exact inductionHypothesis _ _
      | some count =>
          cases count with
          | zero => rfl
          | succ count =>
              simp only [DBSyncer.loadLoop, loadedRecords]
              cases decodeLocation obj with
              | none => rfl
              | some loc => exact inductionHypothesis _ _

namespace LocServer

section Stores

variable [Mul K] [Div K]

/-- The stores are untouched when the snapshot is loaded. -/
theorem stores_of_configure
    {cast : LexicalCast K} {conf : PlainConfig} {server : LocServer K}
    (configured : configure cast conf = some server) :
    server.map = {} ∧ server.pool = AOPool.empty := by
  simp only [configure, Option.bind_eq_bind, Option.bind_eq_some_iff,
    Option.pure_def, Option.some.injEq] at configured
  obtain ⟨maxregion, -, rfl⟩ := configured
  exact ⟨rfl, rfl⟩

variable [AxisNumber K]

@[simp]
theorem map_update (server : LocServer K) (loc : LocationDetail K)
    (sync : Bool) :
    (server.update loc sync).map = server.map.update loc :=
  rfl

@[simp]
theorem pool_update (server : LocServer K) (loc : LocationDetail K)
    (sync : Bool) :
    (server.update loc sync).pool = server.pool.update loc :=
  rfl

theorem map_foldl_update (locs : List (LocationDetail K))
    (server : LocServer K) (sync : Bool) :
    (locs.foldl (fun server loc => server.update loc sync) server).map =
      locs.foldl GlobalMap.update server.map := by
  induction locs generalizing server with
  | nil =>
      rfl
  | cons loc rest inductionHypothesis =>
      rw [List.foldl_cons, List.foldl_cons, inductionHypothesis,
        map_update]

theorem pool_foldl_update (locs : List (LocationDetail K))
    (server : LocServer K) (sync : Bool) :
    (locs.foldl (fun server loc => server.update loc sync) server).pool =
      locs.foldl AOPool.update server.pool := by
  induction locs generalizing server with
  | nil =>
      rfl
  | cons loc rest inductionHypothesis =>
      rw [List.foldl_cons, List.foldl_cons, inductionHypothesis,
        pool_update]

/-- What a successful start leaves in the grid and in the pool. -/
theorem init_eq_some [IntCast K]
    {cast : LexicalCast K} {conf : PlainConfig} {db : Mongo K}
    {surroundings : Surroundings} {server : LocServer K}
    (started : init cast conf db surroundings = some server) :
    ∃ props,
      readGrid cast conf = some props ∧
        server.map =
          ((loadedRecords surroundings.cursorFault db.table1).foldl
            GlobalMap.update {}).init props ∧
        server.pool =
          (loadedRecords surroundings.cursorFault db.table1).foldl
            AOPool.update AOPool.empty := by
  simp only [init, Option.bind_eq_bind, Option.bind_eq_some_iff,
    Option.pure_def, Option.some.injEq] at started
  obtain ⟨configured, configures, opened, opens, props, reads, rfl⟩ :=
    started
  obtain ⟨noRecords, noPool⟩ := stores_of_configure configures
  have loaded :
      opened =
        (loadedRecords surroundings.cursorFault db.table1).foldl
          (fun server loc => server.update loc false) configured := by
    rw [DBSyncer.openDb, DBSyncer.prepare, accepted] at opens
    split at opens
    · split at opens
      · cases opens
        exact loadLoop_snd _ _ _ _
      · cases opens
    · cases opens
  refine ⟨props, reads, ?_, ?_⟩
  · rw [loaded, map_foldl_update, noRecords]
  · rw [loaded, pool_foldl_update, noPool]

end Stores

end LocServer

/-! ## The journal of a run -/

section Journals

variable [Mul K] [Div K] [AxisNumber K]

/-- The slots written by a start and a list of updates, and what was written:
the snapshot under the built-in grid, the updates under the configured one. -/
def placements (loaded : List (LocationDetail K))
    (props : GlobalMap.Properties K) (locs : List (LocationDetail K)) :
    List ((MapCellId × DeviceId) × LocationDetail K) :=
  loaded.map ({} : GlobalMap.Properties K).placement ++
    locs.map props.placement

@[simp]
theorem LocServer.props_updateAll (server : LocServer K)
    (locs : List (LocationDetail K)) :
    (server.updateAll locs).map.props = server.map.props := by
  rw [updateAll, map_foldl_update, GlobalMap.props_foldl_update]

section Run

variable [IntCast K] {cast : LexicalCast K} {conf : PlainConfig} {db : Mongo K}
variable {surroundings : Surroundings} {server : LocServer K}

/-- A slot of the grid holds the last record placed in it. -/
theorem recordAt_updateAll
    (started : LocServer.init cast conf db surroundings = some server)
    (locs : List (LocationDetail K)) (id : MapCellId) (devId : DeviceId) :
    (server.updateAll locs).map.recordAt id devId =
      Journal.last (id, devId)
        (placements (loadedRecords surroundings.cursorFault db.table1)
          server.map.props locs) := by
  obtain ⟨props, -, startMap, -⟩ := LocServer.init_eq_some started
  have startRecord :
      server.map.recordAt id devId =
        Journal.last (id, devId)
          ((loadedRecords surroundings.cursorFault db.table1).map
            ({} : GlobalMap.Properties K).placement) := by
    rw [startMap, GlobalMap.recordAt_init,
      GlobalMap.recordAt_foldl_update, GlobalMap.recordAt_empty,
      Option.or_none]
  rw [LocServer.updateAll, LocServer.map_foldl_update,
    GlobalMap.recordAt_foldl_update, startRecord, placements,
    Journal.last_append]

/-- The pool holds the last record of a device. -/
theorem whereis_updateAll
    (started : LocServer.init cast conf db surroundings = some server)
    (locs : List (LocationDetail K)) (devId : DeviceId) :
    (server.updateAll locs).pool.whereis devId =
      Journal.last devId
        ((placements (loadedRecords surroundings.cursorFault db.table1)
          server.map.props locs).map fun entry =>
            (entry.1.2, entry.2)) := by
  obtain ⟨props, -, -, startPool⟩ := LocServer.init_eq_some started
  rw [LocServer.updateAll, LocServer.pool_foldl_update, startPool,
    AOPool.whereis_foldl_update, AOPool.whereis_foldl_update,
    AOPool.whereis_empty, Option.or_none, placements, List.map_append,
    List.map_map, List.map_map, Journal.last_append]
  rfl

end Run

end Journals

/-! ## A small server -/

/-- The server started on an empty configuration and an empty database. -/
def defaultServer : LocServer :=
  (LocServer.init decimalCast {} {} {}).get (by decide +kernel)

theorem defaultServer_started :
    LocServer.init decimalCast {} {} {} = some defaultServer :=
  (Option.some_get _).symm

end LocationServer

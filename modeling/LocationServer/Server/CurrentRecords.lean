import LocationServer.Grid.Pruning
import LocationServer.Server.Startup
import Mathlib.Data.List.Pairwise

/-!
# Do queries return current records?

An update files the record in the cell of its point and leaves the cell that
held the device before as it is.  A query is therefore current, and free of
duplicates, as long as all records of a device fall into one cell, and a query
over the whole grid shows both records of a device that does not.
-/

namespace LocationServer

/-- Whatever is asked, each record returned is the one the pool holds for its
device, and no device is returned twice. -/
def QueriesCurrent (server : LocServer) : Prop :=
  ∀ now qc,
    (∀ loc ∈ server.map.spatialQuery now [] qc,
        server.pool.whereis loc.devId = some loc) ∧
      ((server.map.spatialQuery now [] qc).map LocationDetail.devId).Nodup

/-- The records of a device were all placed in one cell. -/
def OneCellPerDevice
    (placed : List ((MapCellId × DeviceId) × LocationDetail)) : Prop :=
  ∀ left ∈ placed, ∀ right ∈ placed,
    left.1.2 = right.1.2 → left.1.1 = right.1.1

instance (placed : List ((MapCellId × DeviceId) × LocationDetail)) :
    Decidable (OneCellPerDevice placed) :=
  inferInstanceAs (Decidable (∀ left ∈ placed, _))

/-! ## Candidates without duplicates -/

namespace GlobalMap

variable {map : GlobalMap} {now : Int64} {qc : QueryCase}

theorem selectedAt_devIds_nodup (id : MapCellId) :
    ((map.selectedAt now qc id).map LocationDetail.devId).Nodup := by
  rw [selectedAt]
  cases map.cells[id]? with
  | none =>
      exact List.nodup_nil
  | some cell =>
      exact cell.selected_devIds_nodup now qc

/-- A query finds no device twice exactly when no two cells of its window
contribute the same device. -/
theorem candidates_devIds_nodup_iff :
    ((map.candidates now qc).map LocationDetail.devId).Nodup ↔
      ∀ left ∈ map.windowIds qc.window, ∀ right ∈ map.windowIds qc.window,
        ∀ devId,
          devId ∈ (map.selectedAt now qc left).map LocationDetail.devId →
          devId ∈ (map.selectedAt now qc right).map LocationDetail.devId →
          left = right := by
  rw [candidates, List.map_flatMap, List.nodup_flatMap]
  constructor
  · intro nodup left leftMember right rightMember devId inLeft inRight
    obtain ⟨-, disjoint⟩ := nodup
    by_contra different
    have symmetric :
        Std.Symm (Function.onFun List.Disjoint fun id =>
          (map.selectedAt now qc id).map LocationDetail.devId) :=
      ⟨fun _ _ apart _ inRight inLeft => apart inLeft inRight⟩
    exact
      disjoint.forall leftMember rightMember different inLeft inRight
  · intro alone
    refine ⟨fun id _ => selectedAt_devIds_nodup id, ?_⟩
    refine (map.windowIds_nodup qc.window).imp_of_mem ?_
    intro left right leftMember rightMember different devId inLeft inRight
    exact
      different
        (alone left leftMember right rightMember devId inLeft inRight)

/-- A query finds at most one record for each filled slot. -/
theorem candidates_length_le
    {slots : List (MapCellId × DeviceId)}
    (filled :
      ∀ id devId loc, map.recordAt id devId = some loc →
        (id, devId) ∈ slots) :
    (map.candidates now qc).length ≤ slots.length := by
  let found :=
    (map.windowIds qc.window).flatMap fun id =>
      (map.selectedAt now qc id).map fun loc => (id, loc.devId)
  have sameLength : (map.candidates now qc).length = found.length := by
    simp only [candidates, found, List.length_flatMap, List.length_map]
  have distinct : found.Nodup := by
    refine List.nodup_flatMap.mpr ⟨fun id _ => ?_, ?_⟩
    · have devices := @selectedAt_devIds_nodup map now qc id
      rw [List.Nodup, List.pairwise_map] at devices ⊢
      refine devices.imp ?_
      intro left right different equal
      exact different (congrArg Prod.snd equal)
    · refine (map.windowIds_nodup qc.window).imp ?_
      intro left right different slot inLeft inRight
      obtain ⟨_, -, rfl⟩ := List.mem_map.mp inLeft
      obtain ⟨_, -, equal⟩ := List.mem_map.mp inRight
      exact different (congrArg Prod.fst equal).symm
  have known : found ⊆ slots := by
    intro slot member
    obtain ⟨id, -, inCell⟩ := List.mem_flatMap.mp member
    obtain ⟨loc, selected, rfl⟩ := List.mem_map.mp inCell
    exact filled id loc.devId loc (mem_selectedAt_iff.mp selected).1
  rw [sameLength]
  exact distinct.length_le_of_subset known

/-! ## A query over the whole grid -/

/-- Some plain rectangle query searches every cell id and accepts every record
at two given points. -/
theorem exists_query_of_everything
    {props : Properties} (width : props.cell.width ≠ 0)
    (height : props.cell.height ≠ 0) (left right : GeoPoint) :
    ∃ qc : QueryCase,
      qc.qot = .byUnsorted ∧
        qc.maxnum.toNat = 4294967295 ∧
        (∀ (map : GlobalMap) (id : MapCellId),
          map.props = props → id ∈ map.windowIds qc.window) ∧
        ∀ (now : Int64) (loc : LocationDetail),
          loc.gps.pt = left ∨ loc.gps.pt = right →
            MapCell.Accepts now qc loc := by
  obtain ⟨-, west, isWest, westIndex⟩ :=
    exists_coordinate props.origin.lon width (min left.lon right.lon) 0
  obtain ⟨⟨east, isEast, eastIndex⟩, -⟩ :=
    exists_coordinate props.origin.lon width (max left.lon right.lon) 65535
  obtain ⟨-, south, isSouth, southIndex⟩ :=
    exists_coordinate props.origin.lat height (min left.lat right.lat) 0
  obtain ⟨⟨north, isNorth, northIndex⟩, -⟩ :=
    exists_coordinate props.origin.lat height (max left.lat right.lat) 65535
  refine
    ⟨{ rect :=
        { x := west, y := south, width := east - west,
          height := north - south }
       sqt := .byRectangle, qot := .byUnsorted, elapsed := unlimited
       groupId := "", maxnum := 4294967295 }, rfl, rfl, ?_, ?_⟩
  · intro map id sameProps
    subst sameProps
    rw [mem_windowIds, InWindow]
    have column := mapcellIdxX_lt id
    have row := mapcellIdxY_lt id
    simp only [QueryCase.window, GeoRect._1, GeoRect._3, Properties.column,
      Properties.row, indexOfQuotient_of_ne_zero width,
      indexOfQuotient_of_ne_zero height, add_sub_cancel, westIndex,
      eastIndex, southIndex, northIndex, UInt16.toNat_zero]
    have greatest : (65535 : UInt16).toNat = 65535 := rfl
    omega
  · intro now loc place
    rw [lt_min_iff] at isWest isSouth
    rw [max_lt_iff] at isEast isNorth
    rw [QueryCase.accepts_iff]
    constructor
    · simp only [QueryCase.InShape, GeoRect.within_iff, add_sub_cancel]
      rcases place with here | here <;> rw [here]
      · exact ⟨isWest.1.le, isEast.1.le, isSouth.1.le, isNorth.1.le⟩
      · exact ⟨isWest.2.le, isEast.2.le, isSouth.2.le, isNorth.2.le⟩
    · simp [QueryCase.PassesFilters]

end GlobalMap

/-! ## Runs -/

section Run

variable {cast : LexicalCast} {conf : PlainConfig} {db : Mongo}
variable {surroundings : Surroundings} {server : LocServer}

/-- With one cell for each device, a filled slot holds what the pool holds. -/
theorem whereis_of_recordAt
    (started : LocServer.init cast conf db surroundings = some server)
    {locs : List LocationDetail}
    (oneCell :
      OneCellPerDevice
        (placements (loadedRecords surroundings.cursorFault db.table1)
          server.map.props locs))
    {id : MapCellId} {devId : DeviceId} {loc : LocationDetail}
    (found : (server.updateAll locs).map.recordAt id devId = some loc) :
    (server.updateAll locs).pool.whereis devId = some loc := by
  rw [recordAt_updateAll started] at found
  rw [whereis_updateAll started, ← found]
  have member := Journal.mem_of_last_eq_some found
  refine Journal.last_map_key Prod.snd (id, devId) _ ?_
  intro entry entryMember sameDevice
  exact
    Prod.ext (oneCell entry entryMember _ member sameDevice) sameDevice

theorem queriesCurrent_of_oneCellPerDevice
    (started : LocServer.init cast conf db surroundings = some server)
    {locs : List LocationDetail}
    (oneCell :
      OneCellPerDevice
        (placements (loadedRecords surroundings.cursorFault db.table1)
          server.map.props locs)) :
    QueriesCurrent (server.updateAll locs) := by
  intro now qc
  obtain ⟨sorted, permutes, result⟩ :=
    (server.updateAll locs).map.spatialQuery_spec now qc
  rw [result]
  constructor
  · intro loc member
    obtain ⟨id, -, filed, -⟩ :=
      GlobalMap.mem_candidates_iff.mp
        (permutes.mem_iff.mp (List.mem_of_mem_take member))
    exact whereis_of_recordAt started oneCell filed
  · have distinct :
        (((server.updateAll locs).map.candidates now qc).map
          LocationDetail.devId).Nodup := by
      rw [GlobalMap.candidates_devIds_nodup_iff]
      intro left _ right _ devId inLeft inRight
      obtain ⟨leftLoc, leftSelected, rfl⟩ := List.mem_map.mp inLeft
      obtain ⟨rightLoc, rightSelected, sameDevice⟩ :=
        List.mem_map.mp inRight
      have leftFiled := (GlobalMap.mem_selectedAt_iff.mp leftSelected).1
      have rightFiled := (GlobalMap.mem_selectedAt_iff.mp rightSelected).1
      rw [recordAt_updateAll started] at leftFiled rightFiled
      exact
        oneCell _ (Journal.mem_of_last_eq_some leftFiled) _
          (Journal.mem_of_last_eq_some rightFiled) sameDevice.symm
    exact
      ((List.take_sublist _ _).map _).nodup
        ((permutes.map _).nodup_iff.mpr distinct)

/-- When no query shows a device twice, each device has one cell: a query over
the whole grid would show both records. -/
theorem oneCellPerDevice_of_queriesCurrent
    (started : LocServer.init cast conf db surroundings = some server)
    {locs : List LocationDetail}
    (width : server.map.props.cell.width ≠ 0)
    (height : server.map.props.cell.height ≠ 0)
    (fits :
      (placements (loadedRecords surroundings.cursorFault db.table1)
        server.map.props locs).length < 4294967296)
    (current : QueriesCurrent (server.updateAll locs)) :
    OneCellPerDevice
      (placements (loadedRecords surroundings.cursorFault db.table1)
        server.map.props locs) := by
  let map := (server.updateAll locs).map
  have stored :
      ∀ entry ∈
          placements (loadedRecords surroundings.cursorFault db.table1)
            server.map.props locs,
        ∃ loc, map.recordAt entry.1.1 entry.1.2 = some loc := by
    intro entry member
    apply Option.isSome_iff_exists.mp
    rw [recordAt_updateAll started, Journal.last_isSome_iff]
    exact List.mem_map_of_mem member
  intro left leftMember right rightMember sameDevice
  obtain ⟨leftLoc, leftFiled⟩ := stored left leftMember
  obtain ⟨rightLoc, rightFiled⟩ := stored right rightMember
  have leftDevice := GlobalMap.devId_of_recordAt leftFiled
  have rightDevice := GlobalMap.devId_of_recordAt rightFiled
  obtain ⟨qc, unsorted, limit, everyId, accepts⟩ :=
    GlobalMap.exists_query_of_everything width height leftLoc.gps.pt
      rightLoc.gps.pt
  have everything : ∀ id, id ∈ map.windowIds qc.window := fun id =>
    everyId map id (LocServer.props_updateAll server locs)
  have short : (map.candidates 0 qc).length ≤ qc.maxnum.toNat := by
    have bound :
        (map.candidates 0 qc).length ≤
          ((placements (loadedRecords surroundings.cursorFault db.table1)
            server.map.props locs).map Prod.fst).length := by
      refine GlobalMap.candidates_length_le ?_
      intro id devId loc filed
      rw [recordAt_updateAll started] at filed
      exact List.mem_map_of_mem (Journal.mem_of_last_eq_some filed)
    rw [List.length_map] at bound
    omega
  have result : map.spatialQuery 0 [] qc = map.candidates 0 qc := by
    rw [GlobalMap.spatialQuery_eq, if_neg (by simp [unsorted]),
      List.take_of_length_le short]
  have distinct := (current 0 qc).2
  rw [show (server.updateAll locs).map = map from rfl, result,
    GlobalMap.candidates_devIds_nodup_iff] at distinct
  have shown :
      ∀ {entry : (MapCellId × DeviceId) × LocationDetail}
          {loc : LocationDetail},
        map.recordAt entry.1.1 entry.1.2 = some loc →
        (loc.gps.pt = leftLoc.gps.pt ∨ loc.gps.pt = rightLoc.gps.pt) →
          entry.1.2 ∈
            (map.selectedAt 0 qc entry.1.1).map LocationDetail.devId := by
    intro entry loc filed place
    have device := GlobalMap.devId_of_recordAt filed
    refine List.mem_map.mpr ⟨loc, ?_, device⟩
    rw [GlobalMap.mem_selectedAt_iff, device]
    exact ⟨filed, accepts 0 loc place⟩
  refine
    distinct _ (everything _) _ (everything _) left.1.2
      (shown leftFiled (Or.inl rfl)) ?_
  rw [sameDevice]
  exact shown rightFiled (Or.inr rfl)

/-- Queries are current when all records of a device were placed in one cell,
and, on a grid whose cells have a size, only then. -/
theorem queriesCurrent_iff_oneCellPerDevice
    (started : LocServer.init cast conf db surroundings = some server)
    (locs : List LocationDetail) :
    (OneCellPerDevice
        (placements (loadedRecords surroundings.cursorFault db.table1)
          server.map.props locs) →
      QueriesCurrent (server.updateAll locs)) ∧
    (server.map.props.cell.width ≠ 0 →
      server.map.props.cell.height ≠ 0 →
      (placements (loadedRecords surroundings.cursorFault db.table1)
          server.map.props locs).length < 4294967296 →
      QueriesCurrent (server.updateAll locs) →
        OneCellPerDevice
          (placements (loadedRecords surroundings.cursorFault db.table1)
            server.map.props locs)) :=
  ⟨queriesCurrent_of_oneCellPerDevice started,
    oneCellPerDevice_of_queriesCurrent started⟩

end Run

/-- Two devices that stay where they are: both are found, once each. -/
theorem queriesCurrent_of_resting_devices :
    QueriesCurrent
      (defaultServer.updateAll
        [sampleLocation 2000 (101 / 10) (701 / 10),
          sampleLocation 2001 (101 / 10) (701 / 10),
          sampleLocation 2000 (101 / 10) (701 / 10)]) :=
  (queriesCurrent_iff_oneCellPerDevice defaultServer_started _).1
    (by decide +kernel)

/-- A device that reports from one cell and then from another stays on the
grid twice; the first record is no longer the one in the pool. -/
theorem moved_device_found_twice :
    ∃ (cast : LexicalCast) (conf : PlainConfig) (db : Mongo)
        (surroundings : Surroundings) (server : LocServer)
        (locs : List LocationDetail),
      LocServer.init cast conf db surroundings = some server ∧
        ¬ QueriesCurrent (server.updateAll locs) := by
  refine
    ⟨decimalCast, {}, {}, {}, defaultServer,
      [sampleLocation 2000 (101 / 10) (701 / 10),
        sampleLocation 2000 (102 / 10) (701 / 10)],
      defaultServer_started, ?_⟩
  intro current
  have foundOnce :=
    (current 0
      { rect := { x := 10, y := 70, width := 1, height := 1 }
        sqt := .byRectangle, qot := .byUnsorted, elapsed := unlimited
        groupId := "", maxnum := 100 }).2
  revert foundOnce
  decide +kernel

end LocationServer

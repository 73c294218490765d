import LocationServer.Foundation.Journal
import LocationServer.Grid.CellId

/-!
# What the grid stores and what a query returns

`recordAt` reads one slot of the grid: the record filed in a cell for a device.
An update writes one slot, so a sequence of updates is a journal of writes
keyed by cell and device.  The second half computes the list a query builds:
the accepted records of the window cells, one cell after the other.
-/

namespace LocationServer

open Std

variable {K : Type} [∀ n, OfNat K n]

/-! ## Cells -/

namespace MapCell

/-- The record a cell holds for a device. -/
def find? (cell : MapCell K) (devId : DeviceId) :
    Option (LocationDetail K) :=
  cell.devs[devId]?

@[simp]
theorem find?_empty (devId : DeviceId) :
    (empty : MapCell K).find? devId = none := by
  simp [find?, empty]

@[simp]
theorem find?_update (cell : MapCell K) (loc : LocationDetail K)
    (devId : DeviceId) :
    (cell.update loc).find? devId =
      if loc.devId = devId then some loc else cell.find? devId := by
  simp [find?, update, TreeMap.getElem?_insert]

theorem devId_of_find? {cell : MapCell K} {devId : DeviceId}
    {loc : LocationDetail K} (found : cell.find? devId = some loc) :
    loc.devId = devId :=
  cell.keyed devId loc found

/-- A record passes all three tests of the query. -/
def Accepts (now : Int64) (qc : QueryCase) (loc : LocationDetail) : Prop :=
  queryRecord now qc loc = some loc

instance (now : Int64) (qc : QueryCase) (loc : LocationDetail) :
    Decidable (Accepts now qc loc) :=
  inferInstanceAs (Decidable (_ = _))

theorem queryRecord_eq_some_iff {now : Int64} {qc : QueryCase}
    {loc found : LocationDetail} :
    queryRecord now qc loc = some found ↔
      loc = found ∧ Accepts now qc found := by
  have unchanged :
      ∀ other, queryRecord now qc loc = some other → loc = other := by
    intro other accepted
    simp only [queryRecord, Option.ite_none_left_eq_some,
      Option.some.injEq] at accepted
    exact accepted.2.2.2
  constructor
  · intro accepted
    obtain rfl := unchanged found accepted
    exact ⟨rfl, accepted⟩
  · intro found
    obtain ⟨rfl, accepted⟩ := found
    exact accepted

/-- The records of a cell that pass, in device order. -/
def selected (cell : MapCell) (now : Int64) (qc : QueryCase) :
    List LocationDetail :=
  cell.devs.toList.filterMap fun entry => queryRecord now qc entry.2

/-- `doQuery` appends the passing records and leaves the rest of the list
alone. -/
theorem doQuery_eq (cell : MapCell) (now : Int64) (qc : QueryCase)
    (list : List LocationDetail) :
    cell.doQuery now qc list = list ++ cell.selected now qc := by
  rw [doQuery, selected]
  induction cell.devs.toList generalizing list with
  | nil =>
      simp
  | cons entry rest inductionHypothesis =>
      rw [List.foldl_cons, inductionHypothesis, List.filterMap_cons]
      cases queryRecord now qc entry.2 <;> simp

theorem mem_selected_iff {cell : MapCell} {now : Int64} {qc : QueryCase}
    {loc : LocationDetail} :
    loc ∈ cell.selected now qc ↔
      cell.find? loc.devId = some loc ∧ Accepts now qc loc := by
  simp only [selected, List.mem_filterMap, queryRecord_eq_some_iff,
    Prod.exists, TreeMap.mem_toList_iff_getElem?_eq_some]
  constructor
  · intro listed
    obtain ⟨devId, stored, found, rfl, accepted⟩ := listed
    have filed := cell.keyed devId stored found
    exact ⟨filed ▸ found, accepted⟩
  · intro filed
    obtain ⟨found, accepted⟩ := filed
    exact ⟨loc.devId, loc, found, rfl, accepted⟩

/-- A cell reports its records in the order of their devices. -/
theorem selected_devIds_sorted (cell : MapCell) (now : Int64)
    (qc : QueryCase) :
    ((cell.selected now qc).map LocationDetail.devId).Pairwise (· < ·) := by
  have keys := cell.devs.ordered_keys_toList
  have filed :
      ∀ entry ∈ cell.devs.toList, entry.2.devId = entry.1 :=
    fun entry member =>
      cell.keyed entry.1 entry.2
        (TreeMap.mem_toList_iff_getElem?_eq_some.mp member)
  rw [selected, List.pairwise_map, List.pairwise_filterMap]
  refine keys.imp_of_mem ?_
  intro left right leftMember rightMember before
    found leftFound other rightFound
  obtain ⟨rfl, -⟩ := queryRecord_eq_some_iff.mp leftFound
  obtain ⟨rfl, -⟩ := queryRecord_eq_some_iff.mp rightFound
  rw [filed left leftMember, filed right rightMember]
  exact compare_eq_lt.mp before

/-- A cell reports no device twice. -/
theorem selected_devIds_nodup (cell : MapCell) (now : Int64)
    (qc : QueryCase) :
    ((cell.selected now qc).map LocationDetail.devId).Nodup := by
  refine (selected_devIds_sorted cell now qc).imp ?_
  intro left right before same
  rw [same] at before
  exact UInt64.lt_irrefl right before

end MapCell

/-! ## The grid as a journal -/

namespace GlobalMap

section Journals

variable [Mul K] [Div K]

/-- The record filed under a cell id for a device. -/
def recordAt (map : GlobalMap K) (id : MapCellId) (devId : DeviceId) :
    Option (LocationDetail K) :=
  map.cells[id]?.bind fun cell => cell.find? devId

@[simp]
theorem recordAt_empty (id : MapCellId) (devId : DeviceId)
    (props : Properties K) :
    recordAt { props } id devId = none := by
  simp [recordAt]

@[simp]
theorem recordAt_init (map : GlobalMap K) (props : Properties K)
    (id : MapCellId) (devId : DeviceId) :
    (map.init props).recordAt id devId = map.recordAt id devId :=
  rfl

theorem devId_of_recordAt {map : GlobalMap K} {id : MapCellId}
    {devId : DeviceId} {loc : LocationDetail K}
    (found : map.recordAt id devId = some loc) :
    loc.devId = devId := by
  obtain ⟨cell, _, inCell⟩ := Option.bind_eq_some_iff.mp found
  exact MapCell.devId_of_find? inCell

variable [AxisNumber K]

@[simp]
theorem props_update (map : GlobalMap K) (loc : LocationDetail K) :
    (map.update loc).props = map.props :=
  rfl

/-- The slot an update writes under given properties, and what it writes. -/
def Properties.placement (props : Properties K) (loc : LocationDetail K) :
    (MapCellId × DeviceId) × LocationDetail K :=
  ((props.makeCellId loc.gps.pt, loc.devId), loc)

/-- An update writes one slot. -/
theorem recordAt_update (map : GlobalMap K) (loc : LocationDetail K)
    (id : MapCellId) (devId : DeviceId) :
    (map.update loc).recordAt id devId =
      if (map.props.placement loc).1 = (id, devId) then some loc
      else map.recordAt id devId := by
  by_cases sameCell : map.props.makeCellId loc.gps.pt = id
  · subst sameCell
    cases present : map.cells[map.props.makeCellId loc.gps.pt]? <;>
      simp [recordAt, update, GlobalMap.makeCellId, Properties.placement,
        present]
  · simp [recordAt, update, GlobalMap.makeCellId, Properties.placement,
      TreeMap.getElem?_insert, sameCell]

@[simp]
theorem props_foldl_update (locs : List (LocationDetail K))
    (map : GlobalMap K) :
    (locs.foldl update map).props = map.props := by
  induction locs generalizing map with
  | nil =>
      rfl
  | cons loc rest inductionHypothesis =>
      rw [List.foldl_cons, inductionHypothesis, props_update]

/-- A slot holds the last record placed in it. -/
theorem recordAt_foldl_update (locs : List (LocationDetail K))
    (map : GlobalMap K) (id : MapCellId) (devId : DeviceId) :
    (locs.foldl update map).recordAt id devId =
      (Journal.last (id, devId) (locs.map map.props.placement)).or
        (map.recordAt id devId) := by
  let read (grid : GlobalMap K) (slot : MapCellId × DeviceId) :=
    grid.recordAt slot.1 slot.2
  exact
    @Journal.read_foldl (MapCellId × DeviceId) (LocationDetail K) _
      (GlobalMap K) (LocationDetail K) read update map.props.placement
      (fun grid => grid.props = map.props)
      (fun grid loc sameProps => by rw [props_update, sameProps])
      (fun grid loc slot sameProps => by
        rw [← sameProps]
        exact recordAt_update grid loc slot.1 slot.2)
      map rfl locs (id, devId)

/-- Every record is filed under the cell of its own point. -/
def WellIndexed (map : GlobalMap K) : Prop :=
  ∀ id devId loc, map.recordAt id devId = some loc →
    map.makeCellId loc.gps.pt = id

/-- Updates under one grid keep every record in the cell of its own point. -/
theorem wellIndexed_foldl_update (props : Properties K)
    (locs : List (LocationDetail K)) :
    (locs.foldl update { props }).WellIndexed := by
  intro id devId loc found
  rw [recordAt_foldl_update, recordAt_empty, Option.or_none] at found
  have member := Journal.mem_of_last_eq_some found
  obtain ⟨placed, -, slot⟩ := List.mem_map.mp member
  rw [Properties.placement, Prod.mk.injEq, Prod.mk.injEq] at slot
  rw [GlobalMap.makeCellId, props_foldl_update, ← slot.2]
  exact slot.1.1

end Journals

/-! ## Query results -/

/-- The records one cell id contributes to a query. -/
def selectedAt (map : GlobalMap) (now : Int64) (qc : QueryCase)
    (id : MapCellId) : List LocationDetail :=
  match map.cells[id]? with
  | some cell => cell.selected now qc
  | none => []

theorem mem_selectedAt_iff {map : GlobalMap} {now : Int64}
    {qc : QueryCase} {id : MapCellId} {loc : LocationDetail} :
    loc ∈ map.selectedAt now qc id ↔
      map.recordAt id loc.devId = some loc ∧
        MapCell.Accepts now qc loc := by
  rw [selectedAt, recordAt]
  cases map.cells[id]? with
  | none =>
      simp
  | some cell =>
      simpa using MapCell.mem_selected_iff

theorem doQuery_eq (now : Int64) (qc : QueryCase)
    (list : List LocationDetail) (cells : List MapCell) :
    doQuery now qc list cells =
      list ++ cells.flatMap fun cell => cell.selected now qc := by
  rw [doQuery]
  induction cells generalizing list with
  | nil =>
      simp
  | cons cell rest inductionHypothesis =>
      rw [List.foldl_cons, inductionHypothesis, MapCell.doQuery_eq,
        List.flatMap_cons, List.append_assoc]

theorem flatMap_getCells (map : GlobalMap) (now : Int64) (qc : QueryCase)
    (rc : GeoRect) :
    ((map.getCells rc).flatMap fun cell => cell.selected now qc) =
      (map.windowIds rc).flatMap (map.selectedAt now qc) := by
  rw [getCells]
  induction map.windowIds rc with
  | nil =>
      rfl
  | cons id rest inductionHypothesis =>
      rw [List.filterMap_cons, List.flatMap_cons, selectedAt]
      cases map.cells[id]? <;> simp [inductionHypothesis]

end GlobalMap

/-- The rectangle whose window a query searches. -/
def QueryCase.window (qc : QueryCase) : GeoRect :=
  match qc.sqt with
  | .byDistance => qc.circle.box
  | .byRectangle => qc.rect

namespace GlobalMap

/-- What a query finds before the sort and the limit. -/
def candidates (map : GlobalMap) (now : Int64) (qc : QueryCase) :
    List LocationDetail :=
  (map.windowIds qc.window).flatMap (map.selectedAt now qc)

theorem doQueryByDistance_eq (map : GlobalMap) (now : Int64)
    (list : List LocationDetail) {qc : QueryCase}
    (byDistance : qc.sqt = .byDistance) :
    map.doQueryByDistance now list qc =
      list ++ map.candidates now qc := by
  rw [doQueryByDistance, doQuery_eq, flatMap_getCells, candidates,
    QueryCase.window, byDistance]

theorem doQueryByRectangle_eq (map : GlobalMap) (now : Int64)
    (list : List LocationDetail) {qc : QueryCase}
    (byRectangle : qc.sqt = .byRectangle) :
    map.doQueryByRectangle now list qc =
      list ++ map.candidates now qc := by
  rw [doQueryByRectangle, doQuery_eq, flatMap_getCells, candidates,
    QueryCase.window, byRectangle]

theorem mem_candidates_iff {map : GlobalMap} {now : Int64}
    {qc : QueryCase} {loc : LocationDetail} :
    loc ∈ map.candidates now qc ↔
      ∃ id, map.InWindow qc.window id ∧
        map.recordAt id loc.devId = some loc ∧
          MapCell.Accepts now qc loc := by
  simp only [candidates, List.mem_flatMap, mem_windowIds,
    mem_selectedAt_iff]

/-- The three phases of a query on an empty list: find, sort, cut. -/
theorem spatialQuery_eq (map : GlobalMap) (now : Int64)
    (qc : QueryCase) :
    map.spatialQuery now [] qc =
      (if qc.qot ≠ .byUnsorted then
        (map.candidates now qc).mergeSort
          fun a b => !compareOrderQuery qc b a
      else map.candidates now qc).take qc.maxnum.toNat := by
  have limited :
      ∀ list : List LocationDetail,
        (if list.length > qc.maxnum.toNat then
            list.take qc.maxnum.toNat
          else list) =
          list.take qc.maxnum.toNat := by
    intro list
    split
    · rfl
    · exact (List.take_of_length_le (by omega)).symm
  cases shape : qc.sqt with
  | byDistance =>
      simp only [spatialQuery, shape, limited,
        map.doQueryByDistance_eq now [] shape, List.nil_append]
  | byRectangle =>
      simp only [spatialQuery, shape, limited,
        map.doQueryByRectangle_eq now [] shape, List.nil_append]

/-- A query on an empty list returns a prefix of a permutation of what it
found, and all of it when the limit allows. -/
theorem spatialQuery_spec (map : GlobalMap) (now : Int64)
    (qc : QueryCase) :
    ∃ sorted : List LocationDetail,
      sorted.Perm (map.candidates now qc) ∧
        map.spatialQuery now [] qc = sorted.take qc.maxnum.toNat := by
  refine ⟨_, ?_, spatialQuery_eq map now qc⟩
  split
  · exact List.mergeSort_perm _ _
  · exact List.Perm.refl _

end GlobalMap

end LocationServer

import LocationServer.Foundation.CountedLoop
import LocationServer.Foundation.Enumeration
import LocationServer.Grid.Records

/-!
# The cells of a window

`getCells` with its counters of type `size_t` ends for all corners, since these
counters go past 65535.  It has each cell between the corners once, and none
when the second corner is below the first; so a query reads each record once.
-/

namespace LocationServer

open Enumeration

/-! ## The loops -/

namespace GlobalMap

/-- The body of the inner loop; the id is packed in 64 bits and cut off. -/
def pushCell (map : GlobalMap) (row col : UInt64) (list : List MapCell) :
    List MapCell :=
  let id : MapCellId := ((col <<< 16) ||| row).toUInt32
  match map.cells[id]? with
  | some cell => list ++ [cell]
  | none => list

/-- The double loop of `getCells`, each loop with at most `rounds` tests of its
counter. -/
def getCellsLoop (map : GlobalMap) (rounds : Nat) (rc : GeoRect) :
    Option (List MapCell) :=
  let _1 := map.makeCellId rc._1
  let _3 := map.makeCellId rc._3
  let x1 := (mapcellIdxX _1).toUInt64
  let y1 := (mapcellIdxY _1).toUInt64
  let x2 := (mapcellIdxX _3).toUInt64
  let y2 := (mapcellIdxY _3).toUInt64
  CountedLoop.run
    (fun row list =>
      CountedLoop.run (fun col list => some (map.pushCell row col list)) x2
        rounds x1 list)
    y2 rounds y1 []

theorem pushCell_eq (map : GlobalMap) (row col : UInt64)
    (list : List MapCell) :
    map.pushCell row col list =
      list ++
        (map.cells[mapcellMakeId (UInt32.ofNat col.toNat)
          (UInt32.ofNat row.toNat)]?).toList := by
  have packed :
      ((col <<< 16) ||| row).toUInt32 =
        mapcellMakeId (UInt32.ofNat col.toNat) (UInt32.ofNat row.toNat) := by
    rw [mapcellMakeId, UInt64.toUInt32_or,
      UInt64.toUInt32_shiftLeft _ _ (by decide), ← UInt64.toUInt32_ofNat',
      ← UInt64.toUInt32_ofNat', UInt64.ofNat_toNat, UInt64.ofNat_toNat]
    rfl
  rw [pushCell, packed]
  cases map.cells[mapcellMakeId (UInt32.ofNat col.toNat)
    (UInt32.ofNat row.toNat)]? with
  | none => exact (List.append_nil list).symm
  | some cell => rfl

/-- The cells that the outer loop finds in one row. -/
def rowCells (map : GlobalMap) (x1 x2 row : Nat) : List MapCell :=
  (loopRange x1 x2).flatMap fun col =>
    (map.cells[mapcellMakeId (UInt32.ofNat col)
      (UInt32.ofNat row)]?).toList

theorem getCells_eq_rows (map : GlobalMap) (rc : GeoRect) :
    map.getCells rc =
      (loopRange (mapcellIdxY (map.makeCellId rc._1)).toNat
          (mapcellIdxY (map.makeCellId rc._3)).toNat).flatMap
        (map.rowCells (mapcellIdxX (map.makeCellId rc._1)).toNat
          (mapcellIdxX (map.makeCellId rc._3)).toNat) := by
  rw [getCells, windowIds, List.filterMap_flatMap]
  apply List.flatMap_congr
  intro row _
  rw [List.filterMap_map, List.filterMap_eq_flatMap_toList]
  rfl

/-- A counter of 64 bits goes past every index, 65535 too. -/
theorem passes_of_lt {index : UInt32} (small : index.toNat < 65536) :
    index.toUInt64.toNat + 1 < UInt64.size := by
  rw [UInt32.toNat_toUInt64]
  exact Nat.lt_of_le_of_lt small (by decide)

/-- The loops end and give what `getCells` gives. -/
theorem getCellsLoop_eq (map : GlobalMap) (rc : GeoRect) (rounds : Nat) :
    map.getCellsLoop (rounds + 65537) rc = some (map.getCells rc) := by
  have columns := mapcellIdxX_lt (map.makeCellId rc._3)
  have rows := mapcellIdxY_lt (map.makeCellId rc._3)
  rw [getCells_eq_rows]
  refine CountedLoop.run_eq_append (passes_of_lt rows) ?_ ?_ []
  · intro row list _
    refine CountedLoop.run_eq_append (passes_of_lt columns) ?_ ?_ list
    · intro col list _
      rw [pushCell_eq]
    · rw [UInt32.toNat_toUInt64, UInt32.toNat_toUInt64]
      omega
  · rw [UInt32.toNat_toUInt64, UInt32.toNat_toUInt64]
    omega

/-! ## Each cell once -/

/-- The column and the row of an id are not below those of the first corner
and not above those of the last. -/
def Between (first last id : MapCellId) : Prop :=
  (mapcellIdxX first ≤ mapcellIdxX id ∧
      mapcellIdxX id ≤ mapcellIdxX last) ∧
    (mapcellIdxY first ≤ mapcellIdxY id ∧
      mapcellIdxY id ≤ mapcellIdxY last)

instance (first last id : MapCellId) : Decidable (Between first last id) :=
  inferInstanceAs (Decidable ((_ ∧ _) ∧ (_ ∧ _)))

example :
    Between (mapcellMakeId 32768 0) (mapcellMakeId 65535 65535)
      (mapcellMakeId 65535 40000) := by
  decide

theorem inWindow_iff_between (map : GlobalMap) (rc : GeoRect)
    (id : MapCellId) :
    map.InWindow rc id ↔
      Between (map.makeCellId rc._1) (map.makeCellId rc._3) id := by
  simp only [InWindow, Between, GlobalMap.makeCellId,
    UInt32.le_iff_toNat_le, Properties.idxX_makeCellId,
    Properties.idxY_makeCellId]

theorem getCells_enumerates (map : GlobalMap) (rc : GeoRect) :
    Enumerates (fun id => map.cells[id]?)
      (Between (map.makeCellId rc._1) (map.makeCellId rc._3))
      (map.getCells rc) := by
  refine (Enumerates.filterMap (map.windowIds_nodup rc)).congr ?_
  intro id
  rw [mem_windowIds, inWindow_iff_between]

/-- With the last corner before the first on an axis there is no cell. -/
theorem getCells_of_reversed {map : GlobalMap} {rc : GeoRect}
    (reversed :
      mapcellIdxX (map.makeCellId rc._3) <
          mapcellIdxX (map.makeCellId rc._1) ∨
        mapcellIdxY (map.makeCellId rc._3) <
          mapcellIdxY (map.makeCellId rc._1)) :
    map.getCells rc = [] := by
  apply (map.getCells_enumerates rc).eq_nil
  intro id between
  obtain ⟨columns, rows⟩ := between
  rcases reversed with behind | below
  · exact UInt32.not_le.mpr behind (UInt32.le_trans columns.1 columns.2)
  · exact UInt32.not_le.mpr below (UInt32.le_trans rows.1 rows.2)

/-! ## Each record once -/

/-- The record of a slot when it passes the query. -/
def acceptedAt (map : GlobalMap) (now : Int64) (qc : QueryCase)
    (slot : MapCellId × DeviceId) : Option LocationDetail :=
  (map.recordAt slot.1 slot.2).filter fun loc =>
    decide (MapCell.Accepts now qc loc)

section Query

variable (map : GlobalMap) (now : Int64) (qc : QueryCase)

theorem acceptedAt_eq_some_iff (id : MapCellId) (devId : DeviceId)
    (loc : LocationDetail) :
    map.acceptedAt now qc (id, devId) = some loc ↔
      loc ∈ map.selectedAt now qc id ∧ loc.devId = devId := by
  rw [acceptedAt, Option.filter_eq_some_iff, decide_eq_true_iff,
    mem_selectedAt_iff]
  constructor
  · intro accepted
    obtain ⟨found, accepts⟩ := accepted
    obtain rfl := devId_of_recordAt found
    exact ⟨⟨found, accepts⟩, rfl⟩
  · intro selected
    obtain ⟨selected, rfl⟩ := selected
    exact selected

theorem selectedAt_enumerates (id : MapCellId) :
    Enumerates (fun devId => map.acceptedAt now qc (id, devId))
      (fun _ => True) (map.selectedAt now qc id) := by
  refine Enumerates.of_key ?_ (map.acceptedAt_eq_some_iff now qc id)
  rw [selectedAt]
  cases map.cells[id]? with
  | none => exact List.nodup_nil
  | some cell => exact cell.selected_devIds_nodup now qc

theorem windowRecords_enumerates (rc : GeoRect) :
    Enumerates (map.acceptedAt now qc)
      (fun slot =>
        Between (map.makeCellId rc._1) (map.makeCellId rc._3) slot.1)
      ((map.windowIds rc).flatMap (map.selectedAt now qc)) := by
  have records :=
    Enumerates.flatMap (map.windowIds_nodup rc) fun id _ =>
      map.selectedAt_enumerates now qc id
  refine records.congr ?_
  intro slot
  rw [and_true, mem_windowIds, inWindow_iff_between]

end Query

/-- The loops of `getCells` end and give each populated cell between the two
corners once and no other; a query that goes through them reads the record of
each slot of these cells once. -/
theorem getCells_exact (map : GlobalMap) (rc : GeoRect) :
    (∀ rounds,
      map.getCellsLoop (rounds + 65537) rc = some (map.getCells rc)) ∧
      Enumerates (fun id => map.cells[id]?)
        (Between (map.makeCellId rc._1) (map.makeCellId rc._3))
        (map.getCells rc) ∧
      ∀ (now : Int64) (qc : QueryCase) (list : List LocationDetail),
        ∃ records,
          doQuery now qc list (map.getCells rc) = list ++ records ∧
            Enumerates (map.acceptedAt now qc)
              (fun slot =>
                Between (map.makeCellId rc._1) (map.makeCellId rc._3)
                  slot.1)
              records := by
  refine ⟨map.getCellsLoop_eq rc, map.getCells_enumerates rc, ?_⟩
  intro now qc list
  refine ⟨_, ?_, map.windowRecords_enumerates now qc rc⟩
  rw [doQuery_eq, flatMap_getCells]

end GlobalMap

end LocationServer

import LocationServer.Map
import Mathlib.Data.List.Nodup

/-!
# Cell ids and the window of a rectangle

A cell id packs a column and a row of sixteen bits each.  Packing is a
bijection onto the 32-bit ids, so the double loop of `getCells` visits each id
of its window exactly once, in whatever order the two corners come.
-/

namespace LocationServer

/-! ## Packing -/

theorem mapcellIdxX_toNat (id : MapCellId) :
    (mapcellIdxX id).toNat = id.toNat / 65536 := by
  have mask : (0xffff : UInt32).toNat = 2 ^ 16 - 1 := rfl
  have shift : (16 : UInt32).toNat % 32 = 16 := rfl
  have bound := id.toNat_lt
  rw [mapcellIdxX, UInt32.toNat_and, UInt32.toNat_shiftRight, mask, shift,
    Nat.and_two_pow_sub_one_eq_mod, Nat.shiftRight_eq_div_pow]
  omega

theorem mapcellIdxY_toNat (id : MapCellId) :
    (mapcellIdxY id).toNat = id.toNat % 65536 := by
  have mask : (0xffff : UInt32).toNat = 2 ^ 16 - 1 := rfl
  rw [mapcellIdxY, UInt32.toNat_and, mask, Nat.and_two_pow_sub_one_eq_mod]

theorem mapcellMakeId_toNat {x y : UInt32}
    (xBound : x.toNat < 65536) (yBound : y.toNat < 65536) :
    (mapcellMakeId x y).toNat = x.toNat * 65536 + y.toNat := by
  have shift : (16 : UInt32).toNat % 32 = 16 := rfl
  have fits : x.toNat <<< 16 % 2 ^ 32 = x.toNat <<< 16 := by
    rw [Nat.shiftLeft_eq]
    omega
  rw [mapcellMakeId, UInt32.toNat_or, UInt32.toNat_shiftLeft, shift, fits,
    ← Nat.shiftLeft_add_eq_or_of_lt yBound, Nat.shiftLeft_eq]

theorem mapcellIdxX_makeId {x y : UInt32}
    (xBound : x.toNat < 65536) (yBound : y.toNat < 65536) :
    mapcellIdxX (mapcellMakeId x y) = x := by
  apply UInt32.toNat_inj.mp
  rw [mapcellIdxX_toNat, mapcellMakeId_toNat xBound yBound]
  omega

theorem mapcellIdxY_makeId {x y : UInt32}
    (xBound : x.toNat < 65536) (yBound : y.toNat < 65536) :
    mapcellIdxY (mapcellMakeId x y) = y := by
  apply UInt32.toNat_inj.mp
  rw [mapcellIdxY_toNat, mapcellMakeId_toNat xBound yBound]
  omega

theorem mapcellIdxX_lt (id : MapCellId) :
    (mapcellIdxX id).toNat < 65536 := by
  have bound := id.toNat_lt
  rw [mapcellIdxX_toNat]
  omega

theorem mapcellIdxY_lt (id : MapCellId) :
    (mapcellIdxY id).toNat < 65536 := by
  rw [mapcellIdxY_toNat]
  exact Nat.mod_lt _ (by omega)

/-- Every id is the packing of its own indices. -/
theorem mapcellMakeId_idx (id : MapCellId) :
    mapcellMakeId (mapcellIdxX id) (mapcellIdxY id) = id := by
  apply UInt32.toNat_inj.mp
  rw [mapcellMakeId_toNat (mapcellIdxX_lt id) (mapcellIdxY_lt id),
    mapcellIdxX_toNat, mapcellIdxY_toNat]
  omega

section Counters

variable {col row : Nat}

theorem toNat_ofNat_of_lt (small : col < 65536) :
    (UInt32.ofNat col).toNat = col :=
  UInt32.toNat_ofNat_of_lt' (Nat.lt_trans small (by decide))

/-- An id built from two counters has them as its indices. -/
theorem idxX_makeId_ofNat (colSmall : col < 65536)
    (rowSmall : row < 65536) :
    (mapcellIdxX
        (mapcellMakeId (UInt32.ofNat col) (UInt32.ofNat row))).toNat =
      col := by
  have colValue := toNat_ofNat_of_lt colSmall
  have rowValue := toNat_ofNat_of_lt rowSmall
  rw [mapcellIdxX_makeId (by omega) (by omega), colValue]

theorem idxY_makeId_ofNat (colSmall : col < 65536)
    (rowSmall : row < 65536) :
    (mapcellIdxY
        (mapcellMakeId (UInt32.ofNat col) (UInt32.ofNat row))).toNat =
      row := by
  have colValue := toNat_ofNat_of_lt colSmall
  have rowValue := toNat_ofNat_of_lt rowSmall
  rw [mapcellIdxY_makeId (by omega) (by omega), rowValue]

/-- Different counters give different ids. -/
theorem makeId_ofNat_inj {otherCol otherRow : Nat}
    (colSmall : col < 65536) (rowSmall : row < 65536)
    (otherColSmall : otherCol < 65536) (otherRowSmall : otherRow < 65536)
    (same :
      mapcellMakeId (UInt32.ofNat col) (UInt32.ofNat row) =
        mapcellMakeId (UInt32.ofNat otherCol) (UInt32.ofNat otherRow)) :
    col = otherCol ∧ row = otherRow := by
  constructor
  · rw [← idxX_makeId_ofNat colSmall rowSmall, same,
      idxX_makeId_ofNat otherColSmall otherRowSmall]
  · rw [← idxY_makeId_ofNat colSmall rowSmall, same,
      idxY_makeId_ofNat otherColSmall otherRowSmall]

end Counters

namespace GlobalMap.Properties

variable (props : GlobalMap.Properties) (pt : GeoPoint)

/-- The column of a point. -/
def column : Nat :=
  (indexOfQuotient (pt.lon - props.origin.lon) props.cell.width).toNat

/-- The row of a point. -/
def row : Nat :=
  (indexOfQuotient (pt.lat - props.origin.lat) props.cell.height).toNat

@[simp]
theorem idxX_makeCellId :
    (mapcellIdxX (props.makeCellId pt)).toNat = props.column pt := by
  rw [makeCellId, mapcellIdxX_makeId]
  · simp [column, AxisNumber.indexOf]
  · simpa using UInt16.toNat_lt _
  · simpa using UInt16.toNat_lt _

@[simp]
theorem idxY_makeCellId :
    (mapcellIdxY (props.makeCellId pt)).toNat = props.row pt := by
  rw [makeCellId, mapcellIdxY_makeId]
  · simp [row, AxisNumber.indexOf]
  · simpa using UInt16.toNat_lt _
  · simpa using UInt16.toNat_lt _

end GlobalMap.Properties

/-! ## The window of a rectangle -/

theorem mem_loopRange {first final value : Nat} :
    value ∈ loopRange first final ↔ first ≤ value ∧ value ≤ final := by
  simp only [loopRange, List.mem_range'_1]
  omega

theorem loopRange_nodup (first final : Nat) :
    (loopRange first final).Nodup :=
  List.nodup_range'

@[simp]
theorem loopRange_length (first final : Nat) :
    (loopRange first final).length = final + 1 - first := by
  simp [loopRange]

namespace GlobalMap

/-- An id lies in the window of a rectangle when its column and its row lie
between those of the two corners. -/
def InWindow (map : GlobalMap) (rc : GeoRect) (id : MapCellId) : Prop :=
  (map.props.column rc._1 ≤ (mapcellIdxX id).toNat ∧
      (mapcellIdxX id).toNat ≤ map.props.column rc._3) ∧
    (map.props.row rc._1 ≤ (mapcellIdxY id).toNat ∧
      (mapcellIdxY id).toNat ≤ map.props.row rc._3)

theorem mem_windowIds (map : GlobalMap) (rc : GeoRect) (id : MapCellId) :
    id ∈ map.windowIds rc ↔ map.InWindow rc id := by
  simp only [windowIds, GlobalMap.makeCellId, List.mem_flatMap,
    List.mem_map, mem_loopRange, InWindow,
    GlobalMap.Properties.idxX_makeCellId,
    GlobalMap.Properties.idxY_makeCellId]
  have columnBound : map.props.column rc._3 < 65536 := UInt16.toNat_lt _
  have rowBound : map.props.row rc._3 < 65536 := UInt16.toNat_lt _
  constructor
  · intro built
    obtain ⟨row, rowRange, col, colRange, rfl⟩ := built
    rw [idxX_makeId_ofNat (by omega) (by omega),
      idxY_makeId_ofNat (by omega) (by omega)]
    exact ⟨colRange, rowRange⟩
  · intro inside
    obtain ⟨colRange, rowRange⟩ := inside
    refine
      ⟨(mapcellIdxY id).toNat, rowRange,
        (mapcellIdxX id).toNat, colRange, ?_⟩
    rw [UInt32.ofNat_toNat, UInt32.ofNat_toNat, mapcellMakeId_idx]

/-- The double loop never builds the same id twice. -/
theorem windowIds_nodup (map : GlobalMap) (rc : GeoRect) :
    (map.windowIds rc).Nodup := by
  simp only [windowIds, GlobalMap.makeCellId,
    GlobalMap.Properties.idxX_makeCellId,
    GlobalMap.Properties.idxY_makeCellId]
  have columns :
      ∀ col ∈ loopRange (map.props.column rc._1) (map.props.column rc._3),
        col < 65536 := by
    intro col member
    exact Nat.lt_of_le_of_lt (mem_loopRange.mp member).2 (UInt16.toNat_lt _)
  have rows :
      ∀ row ∈ loopRange (map.props.row rc._1) (map.props.row rc._3),
        row < 65536 := by
    intro row member
    exact Nat.lt_of_le_of_lt (mem_loopRange.mp member).2 (UInt16.toNat_lt _)
  rw [List.nodup_flatMap]
  constructor
  · intro row rowMember
    refine (loopRange_nodup _ _).map_on ?_
    intro left leftMember right rightMember equal
    have same :=
      makeId_ofNat_inj (columns left leftMember) (rows row rowMember)
        (columns right rightMember) (rows row rowMember) equal
    exact same.1
  · refine
      (loopRange_nodup _ _).imp_of_mem ?_
    intro left right leftMember rightMember different id leftId rightId
    obtain ⟨leftCol, leftColMember, rfl⟩ := List.mem_map.mp leftId
    obtain ⟨rightCol, rightColMember, equal⟩ := List.mem_map.mp rightId
    have same :=
      makeId_ofNat_inj (columns rightCol rightColMember)
        (rows right rightMember) (columns leftCol leftColMember)
        (rows left leftMember) equal
    exact different same.2.symm

/-- The number of ids the double loop enumerates. -/
theorem windowIds_length (map : GlobalMap) (rc : GeoRect) :
    (map.windowIds rc).length =
      (map.props.row rc._3 + 1 - map.props.row rc._1) *
        (map.props.column rc._3 + 1 - map.props.column rc._1) := by
  simp [windowIds, GlobalMap.makeCellId, List.length_flatMap]

end GlobalMap

end LocationServer

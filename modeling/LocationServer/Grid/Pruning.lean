import LocationServer.Foundation.Enumeration
import LocationServer.Grid.AxisIndex
import LocationServer.Grid.Records
import Mathlib.Tactic.FieldSimp

/-!
# Pruning by the window of a query

A query looks only into the cells of a window.  The window loses no answer
exactly when each axis of it is covered (`AxisCovered`): the window then holds
the cell of every point of the shape.  When an axis is not covered, some point
of the shape has its cell outside, and a record at that point is missed.
-/

namespace LocationServer

/-! ## Shapes and their bounding boxes -/

/-- The shape test of a query. -/
def QueryCase.InShape (qc : QueryCase) (pt : GeoPoint) : Prop :=
  match qc.sqt with
  | .byDistance =>
      0 ≤ qc.circle.radius ∧
        pt.distanceSq qc.circle.center ≤ qc.circle.radius ^ 2
  | .byRectangle => qc.rect.within pt = true

/-- A query whose shape has extents that are not negative. -/
def QueryCase.ShapeNonneg (qc : QueryCase) : Prop :=
  match qc.sqt with
  | .byDistance => 0 ≤ qc.circle.radius
  | .byRectangle => 0 ≤ qc.rect.width ∧ 0 ≤ qc.rect.height

instance (qc : QueryCase) : Decidable qc.ShapeNonneg := by
  unfold QueryCase.ShapeNonneg
  cases qc.sqt <;> infer_instance

namespace QueryCase

/-- The group filter and the age filter, which do not look at the position. -/
def PassesFilters (now : Int64) (qc : QueryCase)
    (loc : LocationDetail) : Prop :=
  (qc.groupId ≠ "" → loc.groupIn qc.groupId = true) ∧
    (qc.elapsed ≠ unlimited →
      now.toUInt64 - loc.gps.time.toUInt64 ≤ qc.elapsed.toUInt64)

theorem accepts_iff (now : Int64) (qc : QueryCase)
    (loc : LocationDetail) :
    MapCell.Accepts now qc loc ↔
      qc.InShape loc.gps.pt ∧ qc.PassesFilters now loc := by
  rw [MapCell.Accepts, MapCell.queryRecord, InShape, PassesFilters]
  unfold LocationDetail.distanceSq
  cases qc.sqt <;> simp [imp_iff_not_or]

theorem window_extents_nonneg {qc : QueryCase}
    (nonneg : qc.ShapeNonneg) :
    0 ≤ qc.window.width ∧ 0 ≤ qc.window.height := by
  cases shape : qc.sqt with
  | byDistance =>
      simp only [ShapeNonneg, shape] at nonneg
      simp only [window, shape, GeoCircle.box]
      constructor <;> linarith
  | byRectangle =>
      simp only [ShapeNonneg, shape] at nonneg
      simpa only [window, shape] using nonneg

/-- A shape lies in the box whose window is searched. -/
theorem window_within {qc : QueryCase} {pt : GeoPoint}
    (inside : qc.InShape pt) : qc.window.within pt = true := by
  cases shape : qc.sqt with
  | byDistance =>
      simp only [InShape, shape, GeoPoint.distanceSq] at inside
      obtain ⟨radiusNonneg, near⟩ := inside
      have lonSq := sq_nonneg (qc.circle.center.lon - pt.lon)
      have latSq := sq_nonneg (qc.circle.center.lat - pt.lat)
      have lonNear :
          |qc.circle.center.lon - pt.lon| ≤ qc.circle.radius :=
        abs_le_of_sq_le_sq (by linarith) radiusNonneg
      have latNear :
          |qc.circle.center.lat - pt.lat| ≤ qc.circle.radius :=
        abs_le_of_sq_le_sq (by linarith) radiusNonneg
      rw [abs_le] at lonNear latNear
      simp only [window, shape, GeoCircle.box, GeoRect.within_iff]
      refine ⟨?_, ?_, ?_, ?_⟩ <;> linarith [lonNear.1, lonNear.2,
        latNear.1, latNear.2]
  | byRectangle =>
      simpa only [InShape, window, shape] using inside

/-- Every longitude of the box is the longitude of a point of the shape. -/
theorem exists_inShape_lon {qc : QueryCase} (nonneg : qc.ShapeNonneg)
    {lon : ℚ} (west : qc.window.x ≤ lon)
    (east : lon ≤ qc.window.x + qc.window.width) :
    ∃ lat, qc.InShape { lon, lat } := by
  cases shape : qc.sqt with
  | byDistance =>
      simp only [ShapeNonneg, shape] at nonneg
      simp only [window, shape, GeoCircle.box] at west east
      refine ⟨qc.circle.center.lat, ?_⟩
      simp only [InShape, shape, GeoPoint.distanceSq]
      have near : (qc.circle.center.lon - lon) ^ 2 ≤
          qc.circle.radius ^ 2 :=
        sq_le_sq' (by linarith) (by linarith)
      exact ⟨nonneg, by linarith⟩
  | byRectangle =>
      simp only [ShapeNonneg, shape] at nonneg
      simp only [window, shape] at west east
      refine ⟨qc.rect.y, ?_⟩
      simp only [InShape, shape, GeoRect.within_iff]
      exact ⟨west, east, le_rfl, by linarith [nonneg.2]⟩

/-- Every latitude of the box is the latitude of a point of the shape. -/
theorem exists_inShape_lat {qc : QueryCase} (nonneg : qc.ShapeNonneg)
    {lat : ℚ} (south : qc.window.y ≤ lat)
    (north : lat ≤ qc.window.y + qc.window.height) :
    ∃ lon, qc.InShape { lon, lat } := by
  cases shape : qc.sqt with
  | byDistance =>
      simp only [ShapeNonneg, shape] at nonneg
      simp only [window, shape, GeoCircle.box] at south north
      refine ⟨qc.circle.center.lon, ?_⟩
      simp only [InShape, shape, GeoPoint.distanceSq]
      have near : (qc.circle.center.lat - lat) ^ 2 ≤
          qc.circle.radius ^ 2 :=
        sq_le_sq' (by linarith) (by linarith)
      exact ⟨nonneg, by linarith⟩
  | byRectangle =>
      simp only [ShapeNonneg, shape] at nonneg
      simp only [window, shape] at south north
      refine ⟨qc.rect.x, ?_⟩
      simp only [InShape, shape, GeoRect.within_iff]
      exact ⟨le_rfl, by linarith [nonneg.1], south, north⟩

end QueryCase

/-! ## The pruned and the exhaustive query -/

namespace GlobalMap

/-- The query phase as the code runs it, on the cells of the window. -/
def prunedQuery (map : GlobalMap) (now : Int64) (qc : QueryCase) :
    List LocationDetail :=
  match qc.sqt with
  | .byDistance => map.doQueryByDistance now [] qc
  | .byRectangle => map.doQueryByRectangle now [] qc

/-- The same query phase on all cells of the grid. -/
def exhaustiveQuery (map : GlobalMap) (now : Int64) (qc : QueryCase) :
    List LocationDetail :=
  doQuery now qc [] (map.cells.toList.map Prod.snd)

theorem prunedQuery_eq (map : GlobalMap) (now : Int64) (qc : QueryCase) :
    map.prunedQuery now qc = map.candidates now qc := by
  cases shape : qc.sqt with
  | byDistance =>
      simpa only [prunedQuery, shape, List.nil_append] using
        map.doQueryByDistance_eq now [] shape
  | byRectangle =>
      simpa only [prunedQuery, shape, List.nil_append] using
        map.doQueryByRectangle_eq now [] shape

theorem exhaustiveQuery_eq (map : GlobalMap) (now : Int64)
    (qc : QueryCase) :
    map.exhaustiveQuery now qc =
      map.cells.keys.flatMap (map.selectedAt now qc) := by
  rw [exhaustiveQuery, doQuery_eq, List.nil_append, List.flatMap_map,
    ← Std.TreeMap.map_fst_toList_eq_keys, List.flatMap_map]
  apply List.flatMap_congr
  intro entry member
  have present :=
    Std.TreeMap.mem_toList_iff_getElem?_eq_some.mp member
  simp [selectedAt, present]

theorem mem_exhaustiveQuery_iff {map : GlobalMap} {now : Int64}
    {qc : QueryCase} {loc : LocationDetail} :
    loc ∈ map.exhaustiveQuery now qc ↔
      ∃ id, map.recordAt id loc.devId = some loc ∧
        MapCell.Accepts now qc loc := by
  simp only [exhaustiveQuery_eq, List.mem_flatMap, mem_selectedAt_iff,
    Std.TreeMap.mem_keys]
  constructor
  · intro listed
    obtain ⟨id, -, found⟩ := listed
    exact ⟨id, found⟩
  · intro stored
    obtain ⟨id, found, accepted⟩ := stored
    obtain ⟨cell, present, -⟩ := Option.bind_eq_some_iff.mp found
    exact
      ⟨id, Std.TreeMap.mem_iff_isSome_getElem?.mpr (by simp [present]),
        found, accepted⟩

/-- On a well-indexed grid the window loses nothing exactly when it holds the
cell of every accepted record. -/
theorem prunedQuery_perm_iff {map : GlobalMap} (indexed : map.WellIndexed)
    (now : Int64) (qc : QueryCase) :
    (map.prunedQuery now qc).Perm (map.exhaustiveQuery now qc) ↔
      ∀ loc ∈ map.exhaustiveQuery now qc,
        map.InWindow qc.window (map.makeCellId loc.gps.pt) := by
  constructor
  · intro permuted loc member
    have pruned := permuted.mem_iff.mpr member
    rw [prunedQuery_eq, mem_candidates_iff] at pruned
    obtain ⟨id, inWindow, found, -⟩ := pruned
    rw [indexed id loc.devId loc found]
    exact inWindow
  · intro covered
    rw [prunedQuery_eq, exhaustiveQuery_eq, candidates]
    refine
      Enumeration.flatMap_perm_of_support
        (map.windowIds_nodup qc.window) Std.TreeMap.nodup_keys ?_
    intro id contributes
    obtain ⟨loc, member⟩ := List.exists_mem_of_ne_nil _ contributes
    obtain ⟨found, accepted⟩ := mem_selectedAt_iff.mp member
    obtain ⟨cell, present, -⟩ := Option.bind_eq_some_iff.mp found
    have inWindow :=
      covered loc (mem_exhaustiveQuery_iff.mpr ⟨id, found, accepted⟩)
    rw [indexed id loc.devId loc found] at inWindow
    have isKey : id ∈ map.cells :=
      Std.TreeMap.mem_iff_isSome_getElem?.mpr (by simp [present])
    simp [mem_windowIds, inWindow, isKey]

end GlobalMap

/-! ## Coverage of a region -/

/-- Both axes of a rectangle are covered under the given grid. -/
def GlobalMap.Properties.RegionCovered (props : GlobalMap.Properties)
    (rc : GeoRect) : Prop :=
  AxisCovered ((rc.x - props.origin.lon) / props.cell.width)
      ((rc.x + rc.width - props.origin.lon) / props.cell.width) ∧
    AxisCovered ((rc.y - props.origin.lat) / props.cell.height)
      ((rc.y + rc.height - props.origin.lat) / props.cell.height)

instance (props : GlobalMap.Properties) (rc : GeoRect) :
    Decidable (props.RegionCovered rc) :=
  inferInstanceAs (Decidable (_ ∧ _))

/-- One axis of a window, for coordinates instead of quotients. -/
theorem axisCovered_iff_coordinates
    {origin size low extent : ℚ} (positive : 0 < size)
    (nonneg : 0 ≤ extent) :
    AxisCovered ((low - origin) / size) ((low + extent - origin) / size) ↔
      ∀ coordinate, low ≤ coordinate → coordinate ≤ low + extent →
        (indexOfQuotient (low - origin) size).toNat ≤
            (indexOfQuotient (coordinate - origin) size).toNat ∧
          (indexOfQuotient (coordinate - origin) size).toNat ≤
            (indexOfQuotient (low + extent - origin) size).toNat := by
  simp only [indexOfQuotient_of_ne_zero positive.ne']
  have ordered :
      (low - origin) / size ≤ (low + extent - origin) / size :=
    div_le_div_of_nonneg_right (by linarith) positive.le
  rw [← covers_iff ordered]
  constructor
  · intro covered coordinate above below
    apply covered
    · exact div_le_div_of_nonneg_right (by linarith) positive.le
    · exact div_le_div_of_nonneg_right (by linarith) positive.le
  · intro covered div above below
    have restored : (origin + size * div - origin) / size = div := by
      field_simp
      ring
    have bounds := covered (origin + size * div) ?_ ?_
    · rwa [restored] at bounds
    · rw [div_le_iff₀ positive] at above
      linarith
    · rw [le_div_iff₀ positive] at below
      linarith

/-- A covered region holds the cell of each of its points. -/
theorem inWindow_of_regionCovered
    {map : GlobalMap} {rc : GeoRect} {pt : GeoPoint}
    (cellWidth : 0 < map.props.cell.width)
    (cellHeight : 0 < map.props.cell.height)
    (width : 0 ≤ rc.width) (height : 0 ≤ rc.height)
    (covered : map.props.RegionCovered rc)
    (within : rc.within pt = true) :
    map.InWindow rc (map.makeCellId pt) := by
  rw [GeoRect.within_iff] at within
  have columns :=
    (axisCovered_iff_coordinates cellWidth width).mp covered.1
      pt.lon within.1 within.2.1
  have rows :=
    (axisCovered_iff_coordinates cellHeight height).mp covered.2
      pt.lat within.2.2.1 within.2.2.2
  simp only [GlobalMap.InWindow, GlobalMap.makeCellId,
    GlobalMap.Properties.idxX_makeCellId,
    GlobalMap.Properties.idxY_makeCellId]
  exact ⟨columns, rows⟩

/-- A record of the default device at a point, with all filters passed. -/
private def probe (pt : GeoPoint) : LocationDetail where
  devId := 0
  userId := 0
  gps := { pt, time := 0, speed := 0, direction := 0 }
  linkId := 0
  groupIds := []

/-- A window that loses no answer of any one-record grid holds the cell of
every point of the shape. -/
private theorem inWindow_of_probe
    {props : GlobalMap.Properties} {qc : QueryCase} {pt : GeoPoint}
    (lossless :
      ∀ (locs : List LocationDetail) (now : Int64),
        let map := locs.foldl GlobalMap.update { props }
        let plain := { qc with groupId := "", elapsed := unlimited }
        (map.prunedQuery now plain).Perm (map.exhaustiveQuery now plain))
    (inside : qc.InShape pt) :
    ({ props } : GlobalMap).InWindow qc.window (props.makeCellId pt) := by
  let map := [probe pt].foldl GlobalMap.update { props }
  let plain := { qc with groupId := "", elapsed := unlimited }
  have indexed : map.WellIndexed :=
    GlobalMap.wellIndexed_foldl_update props [probe pt]
  have stored :
      map.recordAt (props.makeCellId pt) (probe pt).devId =
        some (probe pt) := by
    rw [GlobalMap.recordAt_foldl_update]
    simp [Journal.last, GlobalMap.Properties.placement, probe]
  have accepted : MapCell.Accepts 0 plain (probe pt) := by
    rw [QueryCase.accepts_iff]
    exact ⟨inside, by simp [QueryCase.PassesFilters, plain]⟩
  exact
    (GlobalMap.prunedQuery_perm_iff indexed 0 plain).mp
      (lossless [probe pt] 0) (probe pt)
      (GlobalMap.mem_exhaustiveQuery_iff.mpr ⟨_, stored, accepted⟩)

/-- Pruning loses no answer, on any grid content and under any filters,
exactly when the box of the shape is covered. -/
theorem pruning_lossless_iff
    (props : GlobalMap.Properties)
    (cellWidth : 0 < props.cell.width)
    (cellHeight : 0 < props.cell.height)
    (qc : QueryCase) (nonneg : qc.ShapeNonneg) :
    (∀ (locs : List LocationDetail) (now : Int64) (groupId : GroupId)
        (elapsed : UInt32),
      let map := locs.foldl GlobalMap.update { props }
      let filtered := { qc with groupId, elapsed }
      (map.prunedQuery now filtered).Perm
        (map.exhaustiveQuery now filtered)) ↔
      props.RegionCovered qc.window := by
  obtain ⟨width, height⟩ := QueryCase.window_extents_nonneg nonneg
  constructor
  · intro lossless
    have reached :
        ∀ pt, qc.InShape pt →
          ({ props } : GlobalMap).InWindow qc.window
            (props.makeCellId pt) := by
      intro pt inside
      exact
        inWindow_of_probe
          (fun locs now => lossless locs now "" unlimited) inside
    simp only [GlobalMap.InWindow,
      GlobalMap.Properties.idxX_makeCellId,
      GlobalMap.Properties.idxY_makeCellId] at reached
    constructor
    · rw [axisCovered_iff_coordinates cellWidth width]
      intro lon west east
      obtain ⟨lat, inside⟩ :=
        QueryCase.exists_inShape_lon nonneg west east
      exact (reached { lon, lat } inside).1
    · rw [axisCovered_iff_coordinates cellHeight height]
      intro lat south north
      obtain ⟨lon, inside⟩ :=
        QueryCase.exists_inShape_lat nonneg south north
      exact (reached { lon, lat } inside).2
  · intro covered locs now groupId elapsed map filtered
    have indexed : map.WellIndexed :=
      GlobalMap.wellIndexed_foldl_update props locs
    have sameProps : map.props = props :=
      GlobalMap.props_foldl_update locs { props }
    rw [GlobalMap.prunedQuery_perm_iff indexed]
    intro loc member
    obtain ⟨-, -, accepted⟩ :=
      GlobalMap.mem_exhaustiveQuery_iff.mp member
    have inside : qc.InShape loc.gps.pt :=
      ((QueryCase.accepts_iff now filtered loc).mp accepted).1
    exact
      inWindow_of_regionCovered
        (sameProps ▸ cellWidth) (sameProps ▸ cellHeight) width height
        (sameProps ▸ covered) (QueryCase.window_within inside)

/-- A rectangle half a degree wide, north-east of the built-in origin, finds
the record in it. -/
theorem pruning_lossless_northEast :
    ((GlobalMap.update {}
          (sampleLocation 2000 (1164 / 10) (394 / 10))).prunedQuery 0
        { rect := { x := 116, y := 39, width := 1 / 2, height := 1 / 2 }
          sqt := .byRectangle, qot := .byTime, elapsed := unlimited
          groupId := "1001", maxnum := 100 }).Perm
      ((GlobalMap.update {}
          (sampleLocation 2000 (1164 / 10) (394 / 10))).exhaustiveQuery 0
        { rect := { x := 116, y := 39, width := 1 / 2, height := 1 / 2 }
          sqt := .byRectangle, qot := .byTime, elapsed := unlimited
          groupId := "1001", maxnum := 100 }) :=
  (pruning_lossless_iff {} (by decide +kernel) (by decide +kernel)
    { rect := { x := 116, y := 39, width := 1 / 2, height := 1 / 2 }
      sqt := .byRectangle, qot := .byTime, elapsed := unlimited
      groupId := "", maxnum := 100 }
    (by decide +kernel)).mpr (by decide +kernel)
      [sampleLocation 2000 (1164 / 10) (394 / 10)] 0 "1001" unlimited

/-- A record on the meridian of the origin sits in column `0`.  A rectangle
around that meridian has both corners in column `1`, so its window is column
`1` alone and the record is missed. -/
theorem pruning_loses_record_on_origin_meridian :
    ∃ (props : GlobalMap.Properties) (locs : List LocationDetail)
        (now : Int64) (qc : QueryCase),
      0 < props.cell.width ∧ 0 < props.cell.height ∧ qc.ShapeNonneg ∧
        ¬ ((locs.foldl GlobalMap.update { props }).prunedQuery
              now qc).Perm
            ((locs.foldl GlobalMap.update { props }).exhaustiveQuery
              now qc) :=
  ⟨{}, [probe { lon := 70, lat := 10 + 1 / 100 }], 0,
    { rect :=
        { x := 70 - 1 / 100, y := 10, width := 1 / 50, height := 1 / 50 }
      sqt := .byRectangle
      qot := .byTime
      elapsed := unlimited
      groupId := ""
      maxnum := 100 },
    by decide +kernel, by decide +kernel, by decide +kernel,
    by decide +kernel⟩

end LocationServer

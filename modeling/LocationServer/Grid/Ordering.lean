import LocationServer.Foundation.Floating
import LocationServer.Foundation.Selection
import LocationServer.Http
import Mathlib.Algebra.Order.Ring.Rat
import Mathlib.Data.Nat.Cast.Order.Ring

/-!
# The order and the limit of a query

`spatialQuery` collects the matches, sorts them by a comparator chosen at run
time and cuts the list.  By time and by distance the comparator compares keys,
so the cut keeps the best matches.  For a number outside the enumeration it
answers `true` for every pair, which no sort allows; and among floating-point
coordinates one that is not a number ties with all others.
-/

namespace LocationServer

open Selection

/-! ## The phases of a query -/

/-- The search phase of `GlobalMap::spatialQuery`. -/
def GlobalMap.findMatches (map : GlobalMap) (now : Int64)
    (list : List LocationDetail) (qc : QueryCase) : List LocationDetail :=
  match qc.sqt with
  | .byDistance => map.doQueryByDistance now list qc
  | .byRectangle => map.doQueryByRectangle now list qc

/-- The sort and the limit phase of `GlobalMap::spatialQuery`. -/
def sortAndLimit (qc : QueryCase) (found : List LocationDetail) :
    List LocationDetail :=
  let sorted :=
    if qc.qot ≠ .byUnsorted then
      found.mergeSort fun a b => !compareOrderQuery qc b a
    else found
  if sorted.length > qc.maxnum.toNat then sorted.take qc.maxnum.toNat
  else sorted

theorem spatialQuery_eq_sortAndLimit (map : GlobalMap) (now : Int64)
    (list : List LocationDetail) (qc : QueryCase) :
    map.spatialQuery now list qc =
      sortAndLimit qc (map.findMatches now list qc) :=
  rfl

/-! ## The key of an order -/

/-- The number that an order compares: the time, or the square of the distance
to the center of the circle. -/
def QueryCase.sortKey (qc : QueryCase) (loc : LocationDetail) : ℚ :=
  match qc.qot with
  | .byTime => loc.gps.time.toNat
  | .byDistance => loc.distanceSq qc.circle.center
  | _ => 0

/-- The order is one that the comparator has a branch for. -/
def QueryCase.ComparesKeys (qc : QueryCase) : Prop :=
  qc.qot = .byTime ∨ qc.qot = .byDistance

instance (qc : QueryCase) : Decidable qc.ComparesKeys :=
  inferInstanceAs (Decidable (_ ∨ _))

theorem compareOrderQuery_iff {qc : QueryCase} (keyed : qc.ComparesKeys)
    (a b : LocationDetail) :
    compareOrderQuery qc a b = true ↔ qc.sortKey a < qc.sortKey b := by
  rcases keyed with byTime | byDistance
  · simp only [compareOrderQuery, QueryCase.sortKey, byTime,
      decide_eq_true_eq, Nat.cast_lt]
    exact UInt32.lt_iff_toNat_lt
  · simp only [compareOrderQuery, QueryCase.sortKey, byDistance,
      decide_eq_true_eq]

theorem sorting_of_comparesKeys {qc : QueryCase}
    (keyed : qc.ComparesKeys) : Sorting (compareOrderQuery qc) :=
  sorting_of_key qc.sortKey (compareOrderQuery_iff keyed)

theorem notAfter_compareOrderQuery_iff {qc : QueryCase}
    (keyed : qc.ComparesKeys) (a b : LocationDetail) :
    notAfter (compareOrderQuery qc) a b = true ↔
      qc.sortKey a ≤ qc.sortKey b := by
  rw [notAfter, Bool.not_eq_true', Bool.eq_false_iff, ne_eq,
    compareOrderQuery_iff keyed, not_lt]

/-! ## The best matches -/

/-- Ordered by time or by distance, a query returns the best of its matches:
as many as the limit allows, in the order of their keys, and no match that is
left out has a smaller key than one that is kept. -/
theorem spatialQuery_keeps_best {qc : QueryCase}
    (keyed : qc.qot = .byTime ∨ qc.qot = .byDistance) :
    (∀ (map : GlobalMap) (now : Int64) (list : List LocationDetail),
      map.spatialQuery now list qc =
        sortAndLimit qc (map.findMatches now list qc)) ∧
      ∀ found : List LocationDetail,
        BestOf (fun a b => qc.sortKey a ≤ qc.sortKey b) qc.maxnum.toNat
            found (sortAndLimit qc found) ∧
          (sortAndLimit qc found).Subperm found := by
  refine ⟨fun map now list =>
    spatialQuery_eq_sortAndLimit map now list qc, ?_⟩
  intro found
  have sorts : qc.qot ≠ .byUnsorted := by
    rcases keyed with byTime | byDistance
    · simp [byTime]
    · simp [byDistance]
  have phases :
      sortAndLimit qc found =
        (found.mergeSort (notAfter (compareOrderQuery qc))).take
          qc.maxnum.toNat := by
    rw [sortAndLimit, if_pos sorts]
    exact cut_eq_take _ _
  have best :=
    bestOf_mergeSort (sorting_of_comparesKeys keyed) qc.maxnum.toNat found
  simp only [notAfter_compareOrderQuery_iff keyed] at best
  rw [phases]
  exact ⟨best, best.subperm⟩

/-- Two of three devices, the nearest first. -/
theorem spatialQuery_keeps_best_two :
    let qc : QueryCase :=
      { sqt := .byDistance
        qot := .byDistance
        elapsed := 0
        groupId := ""
        maxnum := 2 }
    let found :=
      [sampleLocation 2000 3 0, sampleLocation 2001 1 0,
        sampleLocation 2002 2 0]
    BestOf (fun a b => qc.sortKey a ≤ qc.sortKey b) 2 found
      (sortAndLimit qc found) := by
  intro qc found
  exact ((@spatialQuery_keeps_best qc (Or.inr rfl)).2 found).1

/-! ## The contract of the comparator -/

section Contract

open Floating (Number)

variable {qc : QueryCase Number}

/-- Both coordinates are finite. -/
def GeoPoint.IsFinite (pt : GeoPoint Number) : Prop :=
  pt.lon.IsFinite ∧ pt.lat.IsFinite

instance (pt : GeoPoint Number) : Decidable pt.IsFinite :=
  inferInstanceAs (Decidable (_ ∧ _))

/-- A record at a point. -/
def locatedAt (pt : GeoPoint Number) : LocationDetail Number where
  devId := 0
  userId := 0
  gps := { pt, time := 0, speed := 0, direction := 0 }
  linkId := 0
  groupIds := []

theorem sorting_byTime (byTime : qc.qot = .byTime) :
    Sorting (compareOrderQuery qc) := by
  refine sorting_of_key (fun loc => loc.gps.time.toNat) ?_
  intro a b
  simp only [compareOrderQuery, byTime, decide_eq_true_eq]
  exact UInt32.lt_iff_toNat_lt

/-- Outside the enumeration every record comes before itself. -/
theorem not_sorting_of_other {value : Int32}
    (outside : qc.qot = .other value) :
    ¬Sorting (compareOrderQuery qc) := by
  intro contract
  refine contract.irrefl (locatedAt {}) ?_
  simp only [compareOrderQuery, outside]

/-- No record is at a finite distance from a center that is not finite. -/
theorem isUnbounded_distanceSq {center : GeoPoint Number}
    (notFinite : ¬center.IsFinite) (pt : GeoPoint Number) :
    (pt.distanceSq center).IsUnbounded := by
  rw [GeoPoint.distanceSq]
  by_cases lon : center.lon.IsFinite
  · have lat : ¬center.lat.IsFinite := fun lat => notFinite ⟨lon, lat⟩
    exact (Number.isUnbounded_sq (Number.not_isFinite_sub lat _)).sq_add _
  · exact (Number.isUnbounded_sq (Number.not_isFinite_sub lon _)).add_sq _

theorem sorting_byDistance (byDistance : qc.qot = .byDistance)
    (notFinite : ¬qc.circle.center.IsFinite) :
    Sorting (compareOrderQuery qc) := by
  refine sorting_of_never ?_
  intro a b
  simp only [compareOrderQuery, byDistance, decide_eq_true_eq]
  exact
    (isUnbounded_distanceSq notFinite a.gps.pt).not_lt
      (isUnbounded_distanceSq notFinite b.gps.pt)

/-- A record whose longitude is no number ties with the record at the center
and with one beside it, and these two do not tie. -/
theorem not_sorting_byDistance (byDistance : qc.qot = .byDistance)
    (isFinite : qc.circle.center.IsFinite) :
    ¬Sorting (compareOrderQuery qc) := by
  intro contract
  obtain ⟨east, lon⟩ := isFinite.1.exists_eq
  obtain ⟨north, lat⟩ := isFinite.2.exists_eq
  let near := locatedAt { lon := .finite east, lat := .finite north }
  let far := locatedAt { lon := .finite (east + 1), lat := .finite north }
  let lost := locatedAt { lon := .nan, lat := .finite north }
  have compares (a b : LocationDetail Number) :
      compareOrderQuery qc a b = true ↔
        a.distanceSq qc.circle.center < b.distanceSq qc.circle.center := by
    simp only [compareOrderQuery, byDistance, decide_eq_true_eq]
  have nearest : near.distanceSq qc.circle.center = .finite 0 := by
    simp [near, locatedAt, LocationDetail.distanceSq,
      GeoPoint.distanceSq, lon, lat]
  have farther : far.distanceSq qc.circle.center = .finite 1 := by
    simp [far, locatedAt, LocationDetail.distanceSq,
      GeoPoint.distanceSq, lon, lat]
  have nowhere : lost.distanceSq qc.circle.center = .nan := by
    simp [lost, locatedAt, LocationDetail.distanceSq,
      GeoPoint.distanceSq, lon, lat]
  have tied :=
    contract.incomp_trans near lost far
      (by simp [compares, nowhere]) (by simp [compares, nowhere])
  simp only [compares, nearest, farther,
    Number.finite_lt_finite_iff] at tied
  exact tied.1 zero_lt_one

/-- The orders for which a sort, if there is one, has its contract. -/
theorem sorting_if_sorted_iff :
    (qc.qot ≠ .byUnsorted → Sorting (compareOrderQuery qc)) ↔
      qc.qot = .byTime ∨ qc.qot = .byUnsorted ∨
        qc.qot = .byDistance ∧ ¬qc.circle.center.IsFinite := by
  cases qot : qc.qot with
  | byTime => simp [sorting_byTime qot]
  | byDistance =>
      by_cases center : qc.circle.center.IsFinite
      · simp [center, not_sorting_byDistance qot center]
      · simp [center, sorting_byDistance qot center]
  | byUnsorted => simp
  | other value => simp [not_sorting_of_other qot]

/-- An admitted query is sorted by a strict weak order, if it is sorted,
exactly when its order is by time or unsorted, or it is by distance from a
center that is not finite, so that no two distances compare. -/
theorem admitted_order_is_sorting_iff {cast : LexicalCast Number}
    {maxregion : GeoSize Number} {vars : String → String}
    (admitted : admitSpatialQuery cast maxregion vars = .ok qc) :
    (qc.qot ≠ .byUnsorted →
        IsStrictWeakOrder (LocationDetail Number)
            (fun a b => compareOrderQuery qc a b = true) ∧
          Std.Asymm (fun a b => compareOrderQuery qc a b = true)) ↔
      cast.int (getQsvar vars "order" "1") = some 1 ∨
        cast.int (getQsvar vars "order" "1") = some 3 ∨
          cast.int (getQsvar vars "order" "1") = some 2 ∧
            ¬(GeoCircle.fromText cast
                (getQsvar vars "circle" "") {}).2.center.IsFinite := by
  obtain ⟨-, -, ⟨order, read, isOrder⟩, -, isCircle, -⟩ :=
    parseSpatialQuery_eq_ok (parsed_of_admitted admitted)
  rw [read, ← isCircle]
  simp only [Option.some.injEq]
  have asymmetric (contract : Sorting (compareOrderQuery qc)) :
      Std.Asymm (fun a b => compareOrderQuery qc a b = true) := by
    refine ⟨?_⟩
    intro a b before behind
    exact contract.irrefl a (contract.trans a b a before behind)
  rw [and_iff_left_of_imp asymmetric, sorting_if_sorted_iff, isOrder,
    QueryOrderType.ofInt_eq_byTime_iff,
    QueryOrderType.ofInt_eq_byDistance_iff,
    QueryOrderType.ofInt_eq_byUnsorted_iff]

end Contract

/-- `decimalCast` for floating-point numbers, with the spellings of those that
are not finite. -/
def floatingCast : LexicalCast Floating.Number where
  float := fun text =>
    if text = "nan" then some .nan
    else if text = "inf" then some (.infinity false)
    else if text = "-inf" then some (.infinity true)
    else (parseDecimal text).map .finite
  int := decimalCast.int
  uint32 := decimalCast.uint32
  uint64 := decimalCast.uint64

/-- A query within `0.05` degrees of a point, in a given order. -/
def circleQuery (qot : QueryOrderType) : QueryCase Floating.Number where
  circle :=
    { center :=
        { lon := .finite (1164 / 10), lat := .finite (399 / 10) }
      radius := .finite (5 / 100) }
  sqt := .byDistance
  qot
  elapsed := 0
  groupId := ""
  maxnum := 1

/-- The parameters of a request that leaves the order out. -/
theorem default_order_is_sorting :
    IsStrictWeakOrder (LocationDetail Floating.Number)
      (fun a b => compareOrderQuery (circleQuery .byTime) a b = true) :=
  ((@admitted_order_is_sorting_iff _ floatingCast
    { width := .finite (1 / 10), height := .finite (1 / 10) }
    (fun name => if name = "circle" then "116.4,39.9,0.05" else "")
    (by decide +kernel)).mpr (Or.inl (by decide +kernel))
    (by decide)).1

/-- The request `circle=116.4,39.9,0.05&order=0` is admitted and sorted by a
comparator that puts every record before itself. -/
theorem order_zero_is_no_sorting :
    ∃ (cast : LexicalCast Floating.Number)
        (maxregion : GeoSize Floating.Number) (vars : String → String)
        (qc : QueryCase Floating.Number),
      vars "circle" = "116.4,39.9,0.05" ∧ vars "order" = "0" ∧
        admitSpatialQuery cast maxregion vars = .ok qc ∧
        qc.qot ≠ .byUnsorted ∧
        ¬IsStrictWeakOrder (LocationDetail Floating.Number)
          (fun a b => compareOrderQuery qc a b = true) := by
  refine
    ⟨floatingCast,
      { width := .finite (1 / 10), height := .finite (1 / 10) },
      fun name =>
        if name = "circle" then "116.4,39.9,0.05"
        else if name = "order" then "0" else "",
      circleQuery (.other 0), rfl, rfl, by decide +kernel, by decide, ?_⟩
  exact not_sorting_of_other rfl

end LocationServer

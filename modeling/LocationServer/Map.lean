import LocationServer.Query
import Std.Data.TreeMap

/-!
# The cell grid (`map.h`, `map.cpp`)

`std::map` is `Std.TreeMap`: both are ordered by their keys, and an iteration
visits the keys in increasing order.  A record is shared by pointer and never
written after it was stored, so a value stands for the pointer.

A record lies in the circle of a query when its distance from the center is at
most the radius; the model compares the squares, with the sign of the radius
apart.  `time(NULL)` is the parameter `now`.
-/

namespace LocationServer

open Std

/-- One cell of the grid: the records of the devices last seen in it, each
filed under its own device. -/
structure MapCell (K : Type := ℚ) [∀ n, OfNat K n] where
  devs : TreeMap DeviceId (LocationDetail K)
  keyed :
    ∀ (devId : DeviceId) (loc : LocationDetail K),
      devs[devId]? = some loc → loc.devId = devId

variable {K : Type} [∀ n, OfNat K n]

/-- A cell as the constructor leaves it. -/
def MapCell.empty : MapCell K where
  devs := ∅
  keyed := by simp

/-- `MapCell::update`: a present entry is overwritten, an absent one added. -/
def MapCell.update (cell : MapCell K) (loc : LocationDetail K) :
    MapCell K where
  devs := cell.devs.insert loc.devId loc
  keyed := by
    intro devId stored found
    rw [TreeMap.getElem?_insert] at found
    split at found
    · rename_i sameKey
      cases found
      exact LawfulEqCmp.eq_of_compare sameKey
    · exact cell.keyed devId stored found

/-- The body of the loop in `MapCell::doQuery`: the record when it passes the
shape test, the group filter and the age filter, in this order. -/
def MapCell.queryRecord (now : Int64) (qc : QueryCase)
    (loc : LocationDetail) : Option LocationDetail :=
  let inShape :=
    match qc.sqt with
    | .byDistance =>
        decide (0 ≤ qc.circle.radius) &&
          decide (loc.distanceSq qc.circle.center ≤ qc.circle.radius ^ 2)
    | .byRectangle => qc.rect.within loc.gps.pt
  if !inShape then none
  else if qc.groupId ≠ "" && !loc.groupIn qc.groupId then none
  else if qc.elapsed ≠ unlimited &&
      !decide (now.toUInt64 - loc.gps.time.toUInt64 ≤ qc.elapsed.toUInt64)
  then none
  else some loc

/-- `MapCell::doQuery`. -/
def MapCell.doQuery (cell : MapCell) (now : Int64) (qc : QueryCase)
    (list : List LocationDetail) : List LocationDetail :=
  cell.devs.toList.foldl
    (fun list entry =>
      match MapCell.queryRecord now qc entry.2 with
      | some loc => list ++ [loc]
      | none => list)
    list

abbrev MapCellId := UInt32

/-- `MAPCELL_IDX_X`. -/
def mapcellIdxX (id : MapCellId) : UInt32 := (id >>> 16) &&& 0xffff

/-- `MAPCELL_IDX_Y`. -/
def mapcellIdxY (id : MapCellId) : UInt32 := id &&& 0xffff

/-- `MAPCELL_MAKE_ID`. -/
def mapcellMakeId (x y : UInt32) : MapCellId := (x <<< 16) ||| y

/-- `DEGREE_PER_KM`. -/
def degreePerKm [Mul K] [Div K] : K := 1000 / (1860 * 60)

structure GlobalMap.Properties (K : Type := ℚ) [∀ n, OfNat K n] [Mul K]
    [Div K] where
  origin : GeoPoint K := { lon := 70, lat := 10 }
  cell : GeoSize K := { width := 5 * degreePerKm, height := 5 * degreePerKm }
  deriving DecidableEq, Repr

structure GlobalMap (K : Type := ℚ) [∀ n, OfNat K n] [Mul K] [Div K] where
  cells : TreeMap MapCellId (MapCell K) := ∅
  props : GlobalMap.Properties K := {}

/-- The conversion of a quotient to `uint16_t`: truncation toward zero, then
reduction modulo `2 ^ 16`. -/
def toUInt16 (div : ℚ) : UInt16 :=
  UInt16.ofInt (div.num.tdiv div.den)

/-- The index of one axis: `x = uint16_t(div); if(div) x++;`. -/
def axisIndex (div : ℚ) : UInt16 :=
  if div ≠ 0 then toUInt16 div + 1 else toUInt16 div

/-- Numbers with an index on an axis of cells of a given size. -/
class AxisNumber (K : Type) extends Sub K where
  /-- `div = distance / size; x = uint16_t(div); if(div) x++;` -/
  indexOf : (distance size : K) → UInt16

/-- A quotient by zero is an infinity or not a number.  It counts as true, and
its conversion, which C++ leaves open, gives `0` as `cvttss2si` does. -/
def indexOfQuotient (distance size : ℚ) : UInt16 :=
  if size = 0 then 1 else axisIndex (distance / size)

instance : AxisNumber ℚ where
  indexOf := indexOfQuotient

section Grid

variable [Mul K] [Div K]

/-- The cell id of a point under given grid properties. -/
def GlobalMap.Properties.makeCellId [AxisNumber K]
    (props : GlobalMap.Properties K) (pt : GeoPoint K) : MapCellId :=
  let x := AxisNumber.indexOf (pt.lon - props.origin.lon) props.cell.width
  let y := AxisNumber.indexOf (pt.lat - props.origin.lat) props.cell.height
  mapcellMakeId x.toUInt32 y.toUInt32

def GlobalMap.makeCellId [AxisNumber K] (map : GlobalMap K)
    (pt : GeoPoint K) : MapCellId :=
  map.props.makeCellId pt

def GlobalMap.init (map : GlobalMap K)
    (props : GlobalMap.Properties K) : GlobalMap K :=
  { map with props }

def GlobalMap.update [AxisNumber K] (map : GlobalMap K)
    (loc : LocationDetail K) : GlobalMap K :=
  let cid := map.makeCellId loc.gps.pt
  let mc :=
    match map.cells[cid]? with
    | none => MapCell.empty
    | some mc => mc
  { map with cells := map.cells.insert cid (mc.update loc) }

end Grid

/-- The counter values of `for(i = first; i <= final; i++)`. -/
def loopRange (first final : Nat) : List Nat :=
  List.range' first (final + 1 - first)

/-- The cell ids that the double loop of `getCells` looks up, in its order. -/
def GlobalMap.windowIds (map : GlobalMap) (rc : GeoRect) : List MapCellId :=
  let _1 := map.makeCellId rc._1
  let _3 := map.makeCellId rc._3
  (loopRange (mapcellIdxY _1).toNat (mapcellIdxY _3).toNat).flatMap
    fun row =>
      (loopRange (mapcellIdxX _1).toNat (mapcellIdxX _3).toNat).map
        fun col => mapcellMakeId (UInt32.ofNat col) (UInt32.ofNat row)

def GlobalMap.getCells (map : GlobalMap) (rc : GeoRect) : List MapCell :=
  (map.windowIds rc).filterMap fun id => map.cells[id]?

/-- `GlobalMap::doQuery`. -/
def GlobalMap.doQuery (now : Int64) (qc : QueryCase)
    (list : List LocationDetail) (cells : List MapCell) :
    List LocationDetail :=
  cells.foldl (fun list cell => cell.doQuery now qc list) list

/-- The bounding box that `doQueryByDistance` builds. -/
def GeoCircle.box (circle : GeoCircle) : GeoRect where
  x := circle.center.lon - circle.radius
  y := circle.center.lat - circle.radius
  width := circle.radius * 2
  height := circle.radius * 2

def GlobalMap.doQueryByDistance (map : GlobalMap) (now : Int64)
    (list : List LocationDetail) (qc : QueryCase) : List LocationDetail :=
  GlobalMap.doQuery now qc list (map.getCells qc.circle.box)

def GlobalMap.doQueryByRectangle (map : GlobalMap) (now : Int64)
    (list : List LocationDetail) (qc : QueryCase) : List LocationDetail :=
  GlobalMap.doQuery now qc list (map.getCells qc.rect)

/-- `CompareOrderQuery`, the "comes before" test handed to the sort. -/
def compareOrderQuery [Add K] [Sub K] [Pow K ℕ] [LT K] [DecidableLT K]
    (qc : QueryCase K) (a b : LocationDetail K) : Bool :=
  match qc.qot with
  | .byTime => a.gps.time < b.gps.time
  | .byDistance =>
      a.distanceSq qc.circle.center < b.distanceSq qc.circle.center
  | _ => true

/-- `GlobalMap::spatialQuery`.  `std::list::sort` is a stable merge sort. -/
def GlobalMap.spatialQuery (map : GlobalMap) (now : Int64)
    (list : List LocationDetail) (qc : QueryCase) : List LocationDetail :=
  let found :=
    match qc.sqt with
    | .byDistance => map.doQueryByDistance now list qc
    | .byRectangle => map.doQueryByRectangle now list qc
  let sorted :=
    if qc.qot ≠ .byUnsorted then
      found.mergeSort fun a b => !compareOrderQuery qc b a
    else found
  if sorted.length > qc.maxnum.toNat then sorted.take qc.maxnum.toNat
  else sorted

end LocationServer

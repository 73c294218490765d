import LocationServer.Base
import Mathlib.Algebra.Order.Ring.Rat

/-!
# Geometry (`geo.h`, `geo.cpp`)

The four `fromText` parsers share one shape: trim, split at commas, check the
number of items, then convert and store one item after the other.  A failed
conversion leaves the items before it stored, which is why each parser returns
the object beside its verdict.
-/

namespace LocationServer

variable {K : Type}

/-- Convert the items of a text and store them one at a time. -/
def storeValues {Target : Type} (cast : LexicalCast K) :
    List (Target → K → Target) → List String → Target → Bool × Target
  | store :: stores, value :: values, target =>
      match cast.float value with
      | none => (false, target)
      | some number => storeValues cast stores values (store target number)
  | _, _, target => (true, target)

/-- The common body of the `fromText` parsers. -/
def fromText {Target : Type} (cast : LexicalCast K)
    (stores : List (Target → K → Target)) (text : String)
    (target : Target) : Bool × Target :=
  let values := split ',' (trim text)
  if values.length ≠ stores.length then (false, target)
  else storeValues cast stores values target

structure GeoPoint (K : Type := ℚ) [∀ n, OfNat K n] where
  lon : K := 0
  lat : K := 0
  deriving DecidableEq, Repr

section Shapes

variable [∀ n, OfNat K n]

/-- The square of `GeoPoint::distance`. -/
def GeoPoint.distanceSq [Add K] [Sub K] [Pow K ℕ]
    (self pt : GeoPoint K) : K :=
  (pt.lon - self.lon) ^ 2 + (pt.lat - self.lat) ^ 2

def GeoPoint.fromText (cast : LexicalCast K) :
    String → GeoPoint K → Bool × GeoPoint K :=
  LocationServer.fromText cast
    [fun pt lon => { pt with lon }, fun pt lat => { pt with lat }]

structure GeoSize (K : Type := ℚ) [∀ n, OfNat K n] where
  width : K := 0
  height : K := 0
  deriving DecidableEq, Repr

def GeoSize.min [Min K] (size : GeoSize K) : K :=
  Min.min size.width size.height

def GeoSize.max [Max K] (size : GeoSize K) : K :=
  Max.max size.width size.height

def GeoSize.fromText (cast : LexicalCast K) :
    String → GeoSize K → Bool × GeoSize K :=
  LocationServer.fromText cast
    [fun size width => { size with width },
      fun size height => { size with height }]

structure GeoRect (K : Type := ℚ) [∀ n, OfNat K n] where
  x : K := 0
  y : K := 0
  width : K := 0
  height : K := 0
  deriving DecidableEq, Repr

/-- The corner the source calls left-bottom. -/
def GeoRect._1 (rc : GeoRect) : GeoPoint where
  lon := rc.x
  lat := rc.y

/-- The corner the source calls right-top. -/
def GeoRect._3 (rc : GeoRect) : GeoPoint where
  lon := rc.x + rc.width
  lat := rc.y + rc.height

def GeoRect.within (rc : GeoRect) (pt : GeoPoint) : Bool :=
  pt.lon ≥ rc.x && pt.lon ≤ rc.x + rc.width &&
    pt.lat ≥ rc.y && pt.lat ≤ rc.y + rc.height

def GeoRect.size (rc : GeoRect K) : GeoSize K where
  width := rc.width
  height := rc.height

def GeoRect.fromText (cast : LexicalCast K) :
    String → GeoRect K → Bool × GeoRect K :=
  LocationServer.fromText cast
    [fun rc x => { rc with x }, fun rc y => { rc with y },
      fun rc width => { rc with width },
      fun rc height => { rc with height }]

structure GeoCircle (K : Type := ℚ) [∀ n, OfNat K n] where
  center : GeoPoint K := {}
  radius : K := 0
  deriving DecidableEq, Repr

def GeoCircle.fromText (cast : LexicalCast K) :
    String → GeoCircle K → Bool × GeoCircle K :=
  LocationServer.fromText cast
    [fun circle lon =>
        { circle with center := { circle.center with lon } },
      fun circle lat =>
        { circle with center := { circle.center with lat } },
      fun circle radius => { circle with radius }]

structure GpsData (K : Type := ℚ) [∀ n, OfNat K n] where
  pt : GeoPoint K
  time : UInt32
  speed : K
  direction : K
  deriving DecidableEq, Repr

end Shapes

@[simp]
theorem GeoRect.within_iff (rc : GeoRect) (pt : GeoPoint) :
    rc.within pt = true ↔
      rc.x ≤ pt.lon ∧ pt.lon ≤ rc.x + rc.width ∧
        rc.y ≤ pt.lat ∧ pt.lat ≤ rc.y + rc.height := by
  simp [GeoRect.within, and_assoc]

end LocationServer

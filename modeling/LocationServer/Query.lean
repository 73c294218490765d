import LocationServer.Geo

/-!
# Queries and location records (`query.h`, `query.cpp`)
-/

namespace LocationServer

inductive SpatialQueryType where
  | byDistance
  | byRectangle
  deriving DecidableEq, Repr

/-- `QueryOrderType`.  The HTTP handler casts an unchecked `int` into it, so a
value outside the enumeration is one the server can really hold. -/
inductive QueryOrderType where
  | byTime
  | byDistance
  | byUnsorted
  | other (value : Int32)
  deriving DecidableEq, Repr

/-- The cast `(QueryOrderType) value`. -/
def QueryOrderType.ofInt (value : Int32) : QueryOrderType :=
  if value = 1 then .byTime
  else if value = 2 then .byDistance
  else if value = 3 then .byUnsorted
  else .other value

theorem QueryOrderType.ofInt_eq_byTime_iff (value : Int32) :
    QueryOrderType.ofInt value = .byTime ↔ value = 1 := by
  rw [ofInt]
  split_ifs <;> simp [*]

theorem QueryOrderType.ofInt_eq_byDistance_iff (value : Int32) :
    QueryOrderType.ofInt value = .byDistance ↔ value = 2 := by
  rw [ofInt]
  split_ifs <;> simp [*]

theorem QueryOrderType.ofInt_eq_byUnsorted_iff (value : Int32) :
    QueryOrderType.ofInt value = .byUnsorted ↔ value = 3 := by
  rw [ofInt]
  split_ifs <;> simp [*]

structure QueryCase (K : Type := ℚ) [∀ n, OfNat K n] where
  circle : GeoCircle K := {}
  rect : GeoRect K := {}
  sqt : SpatialQueryType
  qot : QueryOrderType
  elapsed : UInt32
  groupId : GroupId
  maxnum : UInt32
  deriving DecidableEq, Repr

structure LocationDetail (K : Type := ℚ) [∀ n, OfNat K n] where
  devId : UniqueId
  userId : UniqueId
  gps : GpsData K
  linkId : UniqueId
  groupIds : List GroupId
  deriving DecidableEq, Repr

def LocationDetail.distanceSq {K : Type} [∀ n, OfNat K n] [Add K] [Sub K]
    [Pow K ℕ] (loc : LocationDetail K) (pt : GeoPoint K) : K :=
  loc.gps.pt.distanceSq pt

def LocationDetail.groupIn (loc : LocationDetail) (gid : GroupId) : Bool :=
  loc.groupIds.contains gid

/-- A device at a point, with the other fields of the message
that the comments of the source show. -/
def sampleLocation (devId : UniqueId) (lon lat : ℚ) : LocationDetail where
  devId
  userId := 1
  gps :=
    { pt := { lon, lat }, time := 1349674863, speed := 45, direction := 245 }
  linkId := 12345678
  groupIds := ["1001"]

end LocationServer

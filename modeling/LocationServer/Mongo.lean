import LocationServer.Base

/-!
# The part of the mongo client that the synchroniser uses

Documents, their element accessors, and the two tables.  An accessor that asks
for the wrong type raises a `DBException`, which is `none` here.  `findOne`
and `update` match on `dev_id`, `update` replaces the first match, `insert`
appends.

The `_id` that `GENOID` puts into an inserted document is never read back; the
model leaves it out.
-/

namespace LocationServer

inductive BSONElement (K : Type := ℚ) where
  | eoo
  | numberLong (value : Int64)
  | numberInt (value : Int32)
  | numberDouble (value : K)
  | string (value : String)
  | other
  deriving DecidableEq, Repr

variable {K : Type}

/-- `BSONElement::Long`. -/
def BSONElement.long : BSONElement K → Option Int64
  | .numberLong value => some value
  | _ => none

/-- `BSONElement::Number`. -/
def BSONElement.number [IntCast K] : BSONElement K → Option K
  | .numberLong value => some value.toInt
  | .numberInt value => some value.toInt
  | .numberDouble value => some value
  | _ => none

structure BSONObj (K : Type := ℚ) where
  fields : List (String × BSONElement K)
  deriving DecidableEq, Repr

/-- `BSONObj::operator[]`: the first field of the name, or the end marker. -/
def BSONObj.getField (obj : BSONObj K) (name : String) : BSONElement K :=
  match obj.fields.lookup name with
  | some element => element
  | none => .eoo

/-- `BSONObj::getStringField`. -/
def BSONObj.getStringField (obj : BSONObj K) (name : String) : String :=
  match obj.getField name with
  | .string value => value
  | _ => ""

/-- A document answers the query `{ dev_id : devId }`. -/
def BSONObj.hasDevId (devId : Int64) (obj : BSONObj) : Bool :=
  obj.getField "dev_id" = .numberLong devId

/-- The tables `TABLE1` (snapshot) and `TABLE2` (history). -/
structure Mongo (K : Type := ℚ) where
  table1 : List (BSONObj K) := []
  table2 : List (BSONObj K) := []
  deriving DecidableEq, Repr

/-- `findOne(TABLE1, { dev_id : devId })`. -/
def Mongo.findOne (db : Mongo) (devId : Int64) : Option BSONObj :=
  db.table1.find? (BSONObj.hasDevId devId)

/-- `insert(TABLE1, obj)`. -/
def Mongo.insert1 (db : Mongo) (obj : BSONObj) : Mongo :=
  { db with table1 := db.table1 ++ [obj] }

/-- `insert(TABLE2, obj)`. -/
def Mongo.insert2 (db : Mongo) (obj : BSONObj) : Mongo :=
  { db with table2 := db.table2 ++ [obj] }

/-- Replace the first element that passes a test. -/
def replaceFirst {α : Type} (test : α → Bool) (item : α) :
    List α → List α
  | [] => []
  | head :: rest =>
      if test head then item :: rest
      else head :: replaceFirst test item rest

/-- `update(TABLE1, { dev_id : devId }, obj)`. -/
def Mongo.update1 (db : Mongo) (devId : Int64) (obj : BSONObj) : Mongo :=
  { db with
    table1 := replaceFirst (BSONObj.hasDevId devId) obj db.table1 }

end LocationServer

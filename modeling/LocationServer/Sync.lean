import LocationServer.Mongo
import LocationServer.Query

/-!
# The database synchroniser (`sync.h`, `sync.cpp`)

A database operation can raise a `DBException`; an operation that raises has
no effect.  Which operations raise is an input of the model: `RecordFaults`
says it for the three operations of one record, and `CursorFault` for the
cursor that reads the snapshot.
-/

namespace LocationServer

/-- The text `sync2db` stores for the group ids.  `std::distance(itr, end)` is
never zero inside the loop, so a comma follows each id.  The `c_str()` around
the stored text drops nothing, since an id read from a message or from a table
holds no NUL. -/
def encodeGroupIds (groupIds : List GroupId) : String :=
  groupIds.foldl (fun text id => text ++ id ++ ",") ""

variable {K : Type} [∀ n, OfNat K n]

/-- The document that `sync2db` builds from a record. -/
def encodeLocation (loc : LocationDetail K) : BSONObj K where
  fields :=
    [("dev_id", .numberLong loc.devId.toInt64),
      ("user_id", .numberLong loc.userId.toInt64),
      ("lon", .numberDouble loc.gps.pt.lon),
      ("lat", .numberDouble loc.gps.pt.lat),
      ("time", .numberLong loc.gps.time.toUInt64.toInt64),
      ("speed", .numberDouble loc.gps.speed),
      ("direction", .numberDouble loc.gps.direction),
      ("link_id", .numberLong loc.linkId.toInt64),
      ("group_ids", .string (encodeGroupIds loc.groupIds))]

/-- The group ids `prepare` reads back from a stored text. -/
def decodeGroupIds (text : String) : List GroupId :=
  (split ',' text).filter (· ≠ "")

/-- The record that `prepare` builds from a document, `none` when an accessor
raises. -/
def decodeLocation [IntCast K] (obj : BSONObj K) :
    Option (LocationDetail K) := do
  let userId ← (obj.getField "user_id").long
  let devId ← (obj.getField "dev_id").long
  let lon ← (obj.getField "lon").number
  let lat ← (obj.getField "lat").number
  let time ← (obj.getField "time").long
  let speed ← (obj.getField "speed").number
  let direction ← (obj.getField "direction").number
  let linkId ← (obj.getField "link_id").long
  return {
    devId := devId.toUInt64
    userId := userId.toUInt64
    gps := {
      pt := { lon, lat }
      time := time.toUInt64.toUInt32
      speed
      direction }
    linkId := linkId.toUInt64
    groupIds := decodeGroupIds (obj.getStringField "group_ids") }

structure DBSyncer (K : Type := ℚ) [∀ n, OfNat K n] where
  locs : List (LocationDetail K) := []
  syncwater : UInt32 := 500
  syncSuccNum : UInt64 := 0
  syncErrorNum : UInt64 := 0
  deriving DecidableEq, Repr

/-- `DBSyncer::update`. -/
def DBSyncer.update (syncer : DBSyncer K) (loc : LocationDetail K) :
    DBSyncer K :=
  { syncer with locs := syncer.locs ++ [loc] }

/-- The queue swap at the head of `DBSyncer::sync`: the batch taken and the
synchroniser left. -/
def DBSyncer.takeBatch (syncer : DBSyncer) (force : Bool) :
    List LocationDetail × DBSyncer :=
  if force || syncer.locs.length ≥ syncer.syncwater.toNat then
    (syncer.locs, { syncer with locs := [] })
  else ([], syncer)

/-- Which of the three operations on a record raise a `DBException`. -/
structure RecordFaults where
  find : Bool := false
  store : Bool := false
  log : Bool := false
  deriving DecidableEq, Repr

/-- Some operation on the record raises. -/
def RecordFaults.raises (faults : RecordFaults) : Bool :=
  faults.find || faults.store || faults.log

/-- The body of the loop in `sync2db`: look the device up, insert or replace
its snapshot, append to the history.  The verdict is `false` when an operation
raised; what was done before it stays done. -/
def syncRecord (faults : RecordFaults) (db : Mongo)
    (loc : LocationDetail) : Bool × Mongo :=
  if faults.find then (false, db)
  else
    let devId := loc.devId.toInt64
    if faults.store then (false, db)
    else
      let db :=
        match db.findOne devId with
        | none => db.insert1 (encodeLocation loc)
        | some _ => db.update1 devId (encodeLocation loc)
      if faults.log then (false, db)
      else (true, db.insert2 (encodeLocation loc))

/-- `DBSyncer::sync2db`, with the faults of each record of the batch.  The
first exception ends the loop with `-1`. -/
def DBSyncer.sync2db (syncer : DBSyncer) (db : Mongo) :
    List (LocationDetail × RecordFaults) → Int32 × DBSyncer × Mongo
  | [] => (0, syncer, db)
  | (loc, faults) :: rest =>
      match syncRecord faults db loc with
      | (true, db) =>
          DBSyncer.sync2db
            { syncer with syncSuccNum := syncer.syncSuccNum + 1 } db rest
      | (false, db) =>
          (-1, { syncer with syncErrorNum := syncer.syncErrorNum + 1 }, db)

/-- `DBSyncer::sync`; the error return of `sync2db` is dropped.  `faults`
gives the faults by position in the batch. -/
def DBSyncer.sync (syncer : DBSyncer) (db : Mongo) (force : Bool)
    (faults : Nat → RecordFaults) : DBSyncer × Mongo :=
  let (batch, syncer) := syncer.takeBatch force
  let (_, syncer, db) :=
    syncer.sync2db db
      (batch.mapIdx fun position loc => (loc, faults position))
  (syncer, db)

/-- `DBSyncer::check`. -/
def DBSyncer.check (syncer : DBSyncer) (db : Mongo)
    (faults : Nat → RecordFaults) : DBSyncer × Mongo :=
  syncer.sync db true faults

/-- The number of documents the cursor delivers before it raises, if it
does. -/
abbrev CursorFault := Option Nat

/-- The loop of `DBSyncer::prepare` over the delivered documents, with
`LocServer::update` as the parameter `update`. -/
def DBSyncer.loadLoop {Server : Type} [IntCast K]
    (update : Server → LocationDetail K → Server) (server : Server) :
    CursorFault → List (BSONObj K) → Bool × Server
  | some 0, _ => (false, server)
  | _, [] => (true, server)
  | fault, obj :: rest =>
      match decodeLocation obj with
      | none => (false, server)
      | some loc =>
          DBSyncer.loadLoop update (update server loc)
            (fault.map (· - 1)) rest

/-- `DBSyncer::prepare`.  A `DBException` of the index or query calls counts as
a cursor that delivers nothing. -/
def DBSyncer.prepare {Server : Type} [IntCast K]
    (update : Server → LocationDetail K → Server) (server : Server)
    (db : Mongo K) (fault : CursorFault) : Bool × Server :=
  DBSyncer.loadLoop update server fault db.table1

/-- `DBSyncer::open`: the result of `prepare` is dropped, only a failed
connection is reported. -/
def DBSyncer.openDb {Server : Type} [IntCast K]
    (update : Server → LocationDetail K → Server) (server : Server)
    (db : Mongo K) (connected : Bool) (fault : CursorFault) : Bool × Server :=
  if connected then
    (true, (DBSyncer.prepare update server db fault).2)
  else (false, server)

end LocationServer

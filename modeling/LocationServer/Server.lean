import LocationServer.Map
import LocationServer.Pool
import LocationServer.Sync

/-!
# The server (`server.h`, `server.cpp`)

`LocServer` owns the three stores.  `init` follows the order of the source:
the region limit, then the database with its snapshot, then the grid.  The
steps that touch no store (signals, logging, HTTP, the broker, the timer) are
left out.
-/

namespace LocationServer

open Std

structure PlainConfig where
  props : TreeMap String String := ∅

/-- `PlainConfig::getProperty<std::string>`. -/
def PlainConfig.getProperty (conf : PlainConfig)
    (name default : String) : String :=
  conf.props[name]?.getD default

/-- `PlainConfig::getProperty<T>`: a value that does not convert counts as
absent. -/
def PlainConfig.getPropertyAs {α : Type} (conf : PlainConfig)
    (convert : String → Option α) (name : String) (default : α) : α :=
  (conf.props[name]?.bind convert).getD default

structure LocServer.Properties (K : Type := ℚ) [∀ n, OfNat K n] where
  spatialqueryRestrictMaxregion : GeoSize K := {}
  dbsync : Int32 := 0
  deriving DecidableEq, Repr

structure LocServer (K : Type := ℚ) [∀ n, OfNat K n] [Mul K] [Div K] where
  pool : AOPool K := AOPool.empty
  map : GlobalMap K := {}
  syncer : DBSyncer K := {}
  props : LocServer.Properties K := {}

section Server

variable {K : Type} [∀ n, OfNat K n] [Mul K] [Div K] [AxisNumber K]

/-- `LocServer::update`. -/
def LocServer.update (server : LocServer K) (loc : LocationDetail K)
    (sync : Bool) : LocServer K :=
  { server with
    map := server.map.update loc
    pool := server.pool.update loc
    syncer :=
      if sync && server.props.dbsync ≠ 0 then server.syncer.update loc
      else server.syncer }

end Server

/-- What the surroundings contribute to a start: whether the database accepts
the connection, and where the snapshot cursor fails. -/
structure Surroundings where
  connected : Bool := true
  cursorFault : CursorFault := none
  deriving DecidableEq, Repr

/-- The result of a `fromText` call that must succeed. -/
def accepted {Target : Type} (parsed : Bool × Target) : Option Target :=
  if parsed.1 then some parsed.2 else none

section Start

variable {K : Type} [∀ n, OfNat K n] [Mul K] [Div K]

/-- The first part of `LocServer::init`: the region limit and the properties
of the synchroniser. -/
def LocServer.configure (cast : LexicalCast K) (conf : PlainConfig) :
    Option (LocServer K) := do
  let maxregion ←
    accepted <|
      GeoSize.fromText cast
        (conf.getProperty "spatialquery.restrict.maxregion" "0.1,0.1") {}
  return {
    syncer := { syncwater := conf.getPropertyAs cast.uint32 "syncpoint" 20 }
    props :=
      { spatialqueryRestrictMaxregion := maxregion
        dbsync := conf.getPropertyAs cast.int "dbsync" 1 } }

/-- The grid that `LocServer::init` reads from the configuration. -/
def readGrid (cast : LexicalCast K) (conf : PlainConfig) :
    Option (GlobalMap.Properties K) := do
  let maprops : GlobalMap.Properties K := {}
  let origin ←
    accepted <|
      GeoPoint.fromText cast (conf.getProperty "map.origin" "10,70")
        maprops.origin
  let cell ←
    accepted <|
      GeoSize.fromText cast (conf.getProperty "map.cell" "0.0448,0.0448")
        maprops.cell
  return { origin, cell }

/-- `LocServer::init` (and `prepare` in the add-in build); `none` when the
start is refused. -/
def LocServer.init [AxisNumber K] [IntCast K] (cast : LexicalCast K)
    (conf : PlainConfig) (db : Mongo K) (surroundings : Surroundings) :
    Option (LocServer K) := do
  let configured ← LocServer.configure cast conf
  let server ←
    accepted <|
      DBSyncer.openDb (fun server loc => server.update loc false)
        configured db surroundings.connected surroundings.cursorFault
  let maprops ← readGrid cast conf
  return { server with map := server.map.init maprops }

/-- A sequence of `LocServer::update` calls, as the message queue makes
them. -/
def LocServer.updateAll [AxisNumber K] (server : LocServer K)
    (locs : List (LocationDetail K)) : LocServer K :=
  locs.foldl (fun server loc => server.update loc true) server

end Start

end LocationServer

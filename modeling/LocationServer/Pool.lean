import LocationServer.Foundation.Journal
import LocationServer.Query
import Std.Data.TreeMap

/-!
# The pool of current records (`pool.h`, `pool.cpp`)
-/

namespace LocationServer

open Std

variable {K : Type} [∀ n, OfNat K n]

structure AOPool (K : Type := ℚ) [∀ n, OfNat K n] where
  aos : TreeMap UniqueId (LocationDetail K)
  keyed :
    ∀ (devId : UniqueId) (loc : LocationDetail K),
      aos[devId]? = some loc → loc.devId = devId

def AOPool.empty : AOPool K where
  aos := ∅
  keyed := by simp

def AOPool.update (pool : AOPool K) (loc : LocationDetail K) :
    AOPool K where
  aos := pool.aos.insert loc.devId loc
  keyed := by
    intro devId stored found
    rw [TreeMap.getElem?_insert] at found
    split at found
    · rename_i sameKey
      cases found
      exact LawfulEqCmp.eq_of_compare sameKey
    · exact pool.keyed devId stored found

/-- `AO_Pool::whereis`; its parameter `elapsed` is never read. -/
def AOPool.whereis (pool : AOPool K) (devId : UniqueId) :
    Option (LocationDetail K) :=
  pool.aos[devId]?

@[simp]
theorem AOPool.whereis_empty (devId : UniqueId) :
    (AOPool.empty : AOPool K).whereis devId = none := by
  simp [AOPool.whereis, AOPool.empty]

@[simp]
theorem AOPool.whereis_update (pool : AOPool K) (loc : LocationDetail K)
    (devId : UniqueId) :
    (pool.update loc).whereis devId =
      if loc.devId = devId then some loc else pool.whereis devId := by
  simp [AOPool.whereis, AOPool.update, TreeMap.getElem?_insert]

/-- The last of a list of records for a device. -/
def lastFor (devId : UniqueId) (records : List (LocationDetail K)) :
    Option (LocationDetail K) :=
  Journal.last devId (records.map fun loc => (loc.devId, loc))

/-- The pool answers with the last record of a device. -/
theorem AOPool.whereis_foldl_update (records : List (LocationDetail K))
    (pool : AOPool K) (devId : UniqueId) :
    (records.foldl AOPool.update pool).whereis devId =
      (lastFor devId records).or (pool.whereis devId) :=
  @Journal.read_foldl DeviceId (LocationDetail K) _ (AOPool K)
    (LocationDetail K)
    AOPool.whereis AOPool.update (fun loc => (loc.devId, loc))
    (fun _ => True) (fun _ _ _ => trivial)
    (fun pool loc devId _ => AOPool.whereis_update pool loc devId)
    pool trivial records devId

end LocationServer

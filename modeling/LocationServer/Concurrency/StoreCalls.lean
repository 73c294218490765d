import LocationServer.Foundation.Threads
import LocationServer.Server.Startup
import LocationServer.Sync.Runs

/-!
# Concurrent calls of `LocServer::update`

A call updates the grid, the pool and the queue of the synchroniser one after
the other, each under the lock of that store and none under a common one.  Two
calls for one device may therefore pass the stores in different orders.  Calls
that do not overlap cannot, and then the stores agree on what is latest.  Each
of the three updates is one step; `GridState` takes that of the grid apart.
-/

namespace LocationServer

open StepSystem

/-- The store that a call of `LocServer::update` turns to next. -/
inductive StorePc where
  | map
  | pool
  | syncer
  | returned
  deriving DecidableEq, Repr

structure StoreCall where
  loc : LocationDetail
  pc : StorePc := .map
  deriving DecidableEq, Repr

/-- The server, the records its synchroniser has handed to the database loop,
and the calls of the run in the order in which they were made. -/
structure StoreState where
  server : LocServer := {}
  taken : List LocationDetail := []
  calls : List StoreCall := []

inductive StoreLabel where
  | call (loc : LocationDetail)
  | step (index : Nat)
  | flush (force : Bool)
  deriving DecidableEq, Repr

namespace StoreState

def step (state : StoreState) : StoreLabel → Option StoreState
  | .call loc => some { state with calls := state.calls ++ [{ loc }] }
  | .step index =>
      match state.calls[index]? with
      | some { loc, pc := .map } =>
          some
            { state with
              server :=
                { state.server with map := state.server.map.update loc }
              calls := state.calls.set index { loc, pc := .pool } }
      | some { loc, pc := .pool } =>
          some
            { state with
              server :=
                { state.server with pool := state.server.pool.update loc }
              calls := state.calls.set index { loc, pc := .syncer } }
      | some { loc, pc := .syncer } =>
          some
            { state with
              server :=
                { state.server with
                  syncer :=
                    if state.server.props.dbsync ≠ 0 then
                      state.server.syncer.update loc
                    else state.server.syncer }
              calls := state.calls.set index { loc, pc := .returned } }
      | _ => none
  | .flush force =>
      let (batch, syncer) := state.server.syncer.takeBatch force
      some
        { state with
          server := { state.server with syncer }
          taken := state.taken ++ batch }

/-- Everything ever enqueued in the synchroniser, oldest first. -/
def enqueued (state : StoreState) : List LocationDetail :=
  state.taken ++ state.server.syncer.locs

/-- The three steps of a call on its own are `LocServer::update`. -/
theorem run_call_alone (state : StoreState) (loc : LocationDetail) :
    run step state
        [.call loc, .step state.calls.length, .step state.calls.length,
          .step state.calls.length] =
      some
        { state with
          server := state.server.update loc true
          calls := state.calls ++ [{ loc, pc := .returned }] } := by
  simp [run, step, LocServer.update]

/-- No other call for the device of a new call is in progress. -/
def Separate (state : StoreState) : StoreLabel → Prop
  | .call loc =>
      ∀ call ∈ state.calls,
        call.loc.devId = loc.devId → call.pc = .returned
  | _ => True

instance (state : StoreState) : DecidablePred state.Separate
  | .call _ => inferInstanceAs (Decidable (∀ call ∈ _, _))
  | .step _ => inferInstanceAs (Decidable True)
  | .flush _ => inferInstanceAs (Decidable True)

/-! ## What a step can do -/

inductive Moved (state : StoreState) : StoreLabel → StoreState → Prop where
  | call (loc : LocationDetail) :
      Moved state (.call loc)
        { state with calls := state.calls ++ [{ loc }] }
  | map (index : Nat) (loc : LocationDetail)
      (present : state.calls[index]? = some { loc, pc := .map }) :
      Moved state (.step index)
        { state with
          server :=
            { state.server with map := state.server.map.update loc }
          calls := state.calls.set index { loc, pc := .pool } }
  | pool (index : Nat) (loc : LocationDetail)
      (present : state.calls[index]? = some { loc, pc := .pool }) :
      Moved state (.step index)
        { state with
          server :=
            { state.server with pool := state.server.pool.update loc }
          calls := state.calls.set index { loc, pc := .syncer } }
  | syncer (index : Nat) (loc : LocationDetail)
      (present : state.calls[index]? = some { loc, pc := .syncer }) :
      Moved state (.step index)
        { state with
          server :=
            { state.server with
              syncer :=
                if state.server.props.dbsync ≠ 0 then
                  state.server.syncer.update loc
                else state.server.syncer }
          calls := state.calls.set index { loc, pc := .returned } }
  | flush (force : Bool) :
      Moved state (.flush force)
        { state with
          server :=
            { state.server with
              syncer := (state.server.syncer.takeBatch force).2 }
          taken :=
            state.taken ++ (state.server.syncer.takeBatch force).1 }

theorem moved_of_step {state next : StoreState} {label : StoreLabel}
    (stepped : state.step label = some next) :
    Moved state label next := by
  cases label with
  | call loc =>
      rw [← Option.some.inj stepped]
      exact Moved.call loc
  | flush force =>
      rw [← Option.some.inj stepped]
      exact Moved.flush force
  | step index =>
      match present : state.calls[index]? with
      | none =>
          simp [step, present] at stepped
      | some { loc, pc := .returned } =>
          simp [step, present] at stepped
      | some { loc, pc := .map } =>
          simp only [step, present, Option.some.injEq] at stepped
          rw [← stepped]
          exact Moved.map index loc present
      | some { loc, pc := .pool } =>
          simp only [step, present, Option.some.injEq] at stepped
          rw [← stepped]
          exact Moved.pool index loc present
      | some { loc, pc := .syncer } =>
          simp only [step, present, Option.some.injEq] at stepped
          rw [← stepped]
          exact Moved.syncer index loc present

end StoreState

end LocationServer

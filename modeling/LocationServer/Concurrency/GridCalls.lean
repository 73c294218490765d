import LocationServer.Foundation.StepSystem
import LocationServer.Foundation.Threads
import LocationServer.Grid.Records

/-!
# Concurrent calls of `GlobalMap::update`

The look-up and the insertion of a new cell run under a shared lock, so that
the steps of several calls interleave freely; only the store into a cell is
exclusive.  `_cells` holds pointers: the model keeps every `MapCell` ever
created in a heap, and an address in the place of the pointer.  A call that
found no cell inserts one without looking again, and may so replace a cell that
another call has chosen in between.
-/

namespace LocationServer

open Std StepSystem

/-- Where a call of `GlobalMap::update` stands: before the look-up, after a
look-up that failed, with the cell it chose, or back in its caller. -/
inductive GridPc where
  | start
  | missed
  | chosen (address : Nat)
  | returned (address : Nat)
  deriving DecidableEq, Repr

structure GridCall where
  loc : LocationDetail
  pc : GridPc := .start
  deriving DecidableEq, Repr

structure GridState where
  props : GlobalMap.Properties := {}
  cells : TreeMap MapCellId Nat := ∅
  heap : List MapCell := []
  calls : List GridCall := []

inductive GridLabel where
  | call (loc : LocationDetail)
  | step (index : Nat)
  deriving DecidableEq, Repr

/-- The cell a call works on, once it has chosen one. -/
def GridCall.address? (call : GridCall) : Option Nat :=
  match call.pc with
  | .chosen address => some address
  | .returned address => some address
  | _ => none

def GridCall.hasReturned (call : GridCall) : Bool :=
  match call.pc with
  | .returned _ => true
  | _ => false

theorem GridCall.hasReturned_iff {call : GridCall} :
    call.hasReturned = true ↔ ∃ address, call.pc = .returned address := by
  rw [hasReturned]
  cases call.pc <;> simp

namespace GridState

def cellId (state : GridState) (loc : LocationDetail) : MapCellId :=
  state.props.makeCellId loc.gps.pt

def step (state : GridState) : GridLabel → Option GridState
  | .call loc => some { state with calls := state.calls ++ [{ loc }] }
  | .step index =>
      match state.calls[index]? with
      | some { loc, pc := .start } =>
          match state.cells[state.cellId loc]? with
          | some address =>
              some
                { state with
                  calls :=
                    state.calls.set index { loc, pc := .chosen address } }
          | none =>
              some
                { state with
                  calls := state.calls.set index { loc, pc := .missed } }
      | some { loc, pc := .missed } =>
          some
            { state with
              cells :=
                state.cells.insert (state.cellId loc) state.heap.length
              heap := state.heap ++ [MapCell.empty]
              calls :=
                state.calls.set index
                  { loc, pc := .chosen state.heap.length } }
      | some { loc, pc := .chosen address } =>
          some
            { state with
              heap := state.heap.modify address (·.update loc)
              calls :=
                state.calls.set index { loc, pc := .returned address } }
      | _ => none

/-- The cell that `_cells` maps an id to. -/
def cellAt? (state : GridState) (id : MapCellId) : Option MapCell :=
  state.cells[id]?.bind fun address => state.heap[address]?

/-! ## What a step can do -/

/-- The moves of the system, with what each of them finds and leaves. -/
inductive Moved (state : GridState) : GridLabel → GridState → Prop where
  | call (loc : LocationDetail) :
      Moved state (.call loc)
        { state with calls := state.calls ++ [{ loc }] }
  | found (index : Nat) (loc : LocationDetail) (address : Nat)
      (present : state.calls[index]? = some { loc, pc := .start })
      (looked : state.cells[state.cellId loc]? = some address) :
      Moved state (.step index)
        { state with
          calls := state.calls.set index { loc, pc := .chosen address } }
  | missed (index : Nat) (loc : LocationDetail)
      (present : state.calls[index]? = some { loc, pc := .start })
      (looked : state.cells[state.cellId loc]? = none) :
      Moved state (.step index)
        { state with calls := state.calls.set index { loc, pc := .missed } }
  | insert (index : Nat) (loc : LocationDetail)
      (present : state.calls[index]? = some { loc, pc := .missed }) :
      Moved state (.step index)
        { state with
          cells := state.cells.insert (state.cellId loc) state.heap.length
          heap := state.heap ++ [MapCell.empty]
          calls :=
            state.calls.set index
              { loc, pc := .chosen state.heap.length } }
  | store (index : Nat) (loc : LocationDetail) (address : Nat)
      (present : state.calls[index]? = some { loc, pc := .chosen address }) :
      Moved state (.step index)
        { state with
          heap := state.heap.modify address (·.update loc)
          calls := state.calls.set index { loc, pc := .returned address } }

theorem moved_of_step {state next : GridState} {label : GridLabel}
    (stepped : state.step label = some next) :
    Moved state label next := by
  cases label with
  | call loc =>
      rw [← Option.some.inj stepped]
      exact Moved.call loc
  | step index =>
      match present : state.calls[index]? with
      | none =>
          simp [step, present] at stepped
      | some { loc, pc := .returned address } =>
          simp [step, present] at stepped
      | some { loc, pc := .start } =>
          cases looked : state.cells[state.cellId loc]? with
          | some address =>
              simp only [step, present, looked, Option.some.injEq] at stepped
              rw [← stepped]
              exact Moved.found index loc address present looked
          | none =>
              simp only [step, present, looked, Option.some.injEq] at stepped
              rw [← stepped]
              exact Moved.missed index loc present looked
      | some { loc, pc := .missed } =>
          simp only [step, present, Option.some.injEq] at stepped
          rw [← stepped]
          exact Moved.insert index loc present
      | some { loc, pc := .chosen address } =>
          simp only [step, present, Option.some.injEq] at stepped
          rw [← stepped]
          exact Moved.store index loc address present

theorem step_of_moved {state next : GridState} {label : GridLabel}
    (moved : Moved state label next) :
    state.step label = some next := by
  cases moved with
  | call loc =>
      rfl
  | found index loc address present looked =>
      simp only [step, present, looked]
  | missed index loc present looked =>
      simp only [step, present, looked]
  | insert index loc present =>
      simp only [step, present]
  | store index loc address present =>
      simp only [step, present]

/-- The pointers in `_cells` are valid. -/
def Addressed (state : GridState) : Prop :=
  ∀ (id : MapCellId) (address : Nat),
    state.cells[id]? = some address → address < state.heap.length

/-- No two ids share a cell. -/
def Distinct (state : GridState) : Prop :=
  ∀ (left right : MapCellId) (address : Nat),
    state.cells[left]? = some address →
    state.cells[right]? = some address → left = right

/-! ## One call on its own -/

/-- The cells behind the pointers are those of a grid of the sequential
model. -/
structure Represents (state : GridState) (map : GlobalMap) : Prop where
  props : state.props = map.props
  cells : ∀ id, state.cellAt? id = map.cells[id]?

theorem cells_update (map : GlobalMap) (loc : LocationDetail)
    (id : MapCellId) :
    (map.update loc).cells[id]? =
      if map.makeCellId loc.gps.pt = id then
        some ((map.cells[id]?.getD MapCell.empty).update loc)
      else map.cells[id]? := by
  rw [GlobalMap.update, TreeMap.getElem?_insert]
  by_cases sameId : map.makeCellId loc.gps.pt = id
  · rw [sameId]
    cases map.cells[id]? <;> simp
  · simp [sameId]

/-- Storing a record through a valid pointer changes that cell alone. -/
theorem cellAt?_modify {state : GridState}
    (addressed : state.Addressed) (distinct : state.Distinct)
    {target : MapCellId} {address : Nat}
    (mapped : state.cells[target]? = some address)
    (loc : LocationDetail) (calls : List GridCall) (id : MapCellId) :
    cellAt?
        { state with
          heap := state.heap.modify address (·.update loc), calls } id =
      if target = id then
        some (((state.cellAt? id).getD MapCell.empty).update loc)
      else state.cellAt? id := by
  have bound := addressed target address mapped
  rw [cellAt?, cellAt?]
  by_cases sameId : target = id
  · subst sameId
    simp [mapped, List.getElem?_modify, List.getElem?_eq_getElem bound]
  · rw [if_neg sameId]
    cases other : state.cells[id]? with
    | none =>
        rfl
    | some elsewhere =>
        have different : address ≠ elsewhere := by
          intro sameAddress
          rw [← sameAddress] at other
          exact sameId (distinct target id address mapped other)
        simp [List.getElem?_modify, different]

end GridState

end LocationServer

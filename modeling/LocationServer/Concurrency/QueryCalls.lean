import LocationServer.Concurrency.GridReachability
import LocationServer.Grid.Ordering

/-!
# Queries among concurrent updates

`getCells` looks up one id after the other while calls of `GlobalMap::update`
look up and insert cells under the same shared lock, and `MapCell::doQuery`
reads each cell that was found under the shared lock of that cell, so that a
store comes before the reading of a cell or after it.  Between two cells the
grid moves on: a query does not see the grid of any one moment.

`time(NULL)` is taken once for each cell that is read.
-/

namespace LocationServer

open Std StepSystem

/-- Where a call of `GlobalMap::spatialQuery` stands: in the double loop of
`getCells`, with the ids that are still to be looked up and the cells found so
far, in the loop of `doQuery`, with the cells still to be read, or back in its
caller. -/
inductive QueryPc where
  | looking (ids : List MapCellId) (cells : List Nat)
  | reading (cells : List Nat)
  | returned
  deriving DecidableEq, Repr

structure QueryCall where
  qc : QueryCase
  list : List LocationDetail := []
  pc : QueryPc

structure QueryState where
  grid : GridState := {}
  queries : List QueryCall := []

inductive QueryLabel where
  | grid (label : GridLabel)
  | query (qc : QueryCase)
  | advance (index : Nat) (now : Int64)
  deriving DecidableEq

/-- The ids that the double loop of `getCells` looks up for a query. -/
def GridState.windowIds (grid : GridState) (qc : QueryCase) :
    List MapCellId :=
  GlobalMap.windowIds { props := grid.props } qc.window

namespace QueryState

def step (state : QueryState) : QueryLabel → Option QueryState
  | .grid label =>
      (state.grid.step label).map fun grid => { state with grid }
  | .query qc =>
      some
        { state with
          queries :=
            state.queries ++
              [{ qc, pc := .looking (state.grid.windowIds qc) [] }] }
  | .advance index now =>
      match state.queries[index]? with
      | some { qc, list, pc := .looking (id :: ids) cells } =>
          some
            { state with
              queries :=
                state.queries.set index
                  { qc, list
                    pc :=
                      .looking ids
                        (cells ++ state.grid.cells[id]?.toList) } }
      | some { qc, list, pc := .looking [] cells } =>
          some
            { state with
              queries :=
                state.queries.set index
                  { qc, list, pc := .reading cells } }
      | some { qc, list, pc := .reading (address :: cells) } =>
          state.grid.heap[address]?.map fun cell =>
            { state with
              queries :=
                state.queries.set index
                  { qc
                    list := cell.doQuery now qc list
                    pc := .reading cells } }
      | some { qc, list, pc := .reading [] } =>
          some
            { state with
              queries :=
                state.queries.set index
                  { qc, list := sortAndLimit qc list, pc := .returned } }
      | _ => none

/-! ## What a step can do -/

inductive Moved (state : QueryState) : QueryLabel → QueryState → Prop where
  | grid (label : GridLabel) (grid : GridState)
      (moved : GridState.Moved state.grid label grid) :
      Moved state (.grid label) { state with grid }
  | query (qc : QueryCase) :
      Moved state (.query qc)
        { state with
          queries :=
            state.queries ++
              [{ qc, pc := .looking (state.grid.windowIds qc) [] }] }
  | look (index : Nat) (now : Int64) (qc : QueryCase)
      (list : List LocationDetail) (id : MapCellId)
      (ids : List MapCellId) (cells : List Nat)
      (present :
        state.queries[index]? =
          some { qc, list, pc := .looking (id :: ids) cells }) :
      Moved state (.advance index now)
        { state with
          queries :=
            state.queries.set index
              { qc, list
                pc :=
                  .looking ids (cells ++ state.grid.cells[id]?.toList) } }
  | looked (index : Nat) (now : Int64) (qc : QueryCase)
      (list : List LocationDetail) (cells : List Nat)
      (present :
        state.queries[index]? =
          some { qc, list, pc := .looking [] cells }) :
      Moved state (.advance index now)
        { state with
          queries :=
            state.queries.set index { qc, list, pc := .reading cells } }
  | read (index : Nat) (now : Int64) (qc : QueryCase)
      (list : List LocationDetail) (address : Nat) (cells : List Nat)
      (cell : MapCell)
      (present :
        state.queries[index]? =
          some { qc, list, pc := .reading (address :: cells) })
      (found : state.grid.heap[address]? = some cell) :
      Moved state (.advance index now)
        { state with
          queries :=
            state.queries.set index
              { qc, list := cell.doQuery now qc list
                pc := .reading cells } }
  | finish (index : Nat) (now : Int64) (qc : QueryCase)
      (list : List LocationDetail)
      (present :
        state.queries[index]? = some { qc, list, pc := .reading [] }) :
      Moved state (.advance index now)
        { state with
          queries :=
            state.queries.set index
              { qc, list := sortAndLimit qc list, pc := .returned } }

theorem moved_of_step {state next : QueryState} {label : QueryLabel}
    (stepped : state.step label = some next) : Moved state label next := by
  cases label with
  | grid label =>
      obtain ⟨grid, moved, isNext⟩ := Option.map_eq_some_iff.mp stepped
      rw [← isNext]
      exact Moved.grid label grid (GridState.moved_of_step moved)
  | query qc =>
      rw [← Option.some.inj stepped]
      exact Moved.query qc
  | advance index now =>
      match present : state.queries[index]? with
      | none => simp [step, present] at stepped
      | some { qc, list, pc := .returned } => simp [step, present] at stepped
      | some { qc, list, pc := .looking (id :: ids) cells } =>
          simp only [step, present, Option.some.injEq] at stepped
          rw [← stepped]
          exact Moved.look index now qc list id ids cells present
      | some { qc, list, pc := .looking [] cells } =>
          simp only [step, present, Option.some.injEq] at stepped
          rw [← stepped]
          exact Moved.looked index now qc list cells present
      | some { qc, list, pc := .reading (address :: cells) } =>
          simp only [step, present] at stepped
          obtain ⟨cell, found, isNext⟩ := Option.map_eq_some_iff.mp stepped
          rw [← isNext]
          exact
            Moved.read index now qc list address cells cell present found
      | some { qc, list, pc := .reading [] } =>
          simp only [step, present, Option.some.injEq] at stepped
          rw [← stepped]
          exact Moved.finish index now qc list present

/-- The grid moves as it does without queries. -/
theorem grid_of_moved {state next : QueryState} {label : QueryLabel}
    (moved : Moved state label next) :
    next.grid = state.grid ∨
      ∃ gridLabel, label = .grid gridLabel ∧
        GridState.Moved state.grid gridLabel next.grid := by
  cases moved with
  | grid gridLabel grid gridMoved =>
      exact Or.inr ⟨gridLabel, rfl, gridMoved⟩
  | query qc => exact Or.inl rfl
  | look index now qc list id ids cells present => exact Or.inl rfl
  | looked index now qc list cells present => exact Or.inl rfl
  | read index now qc list address cells cell present found =>
      exact Or.inl rfl
  | finish index now qc list present => exact Or.inl rfl

theorem wellFormed_of_moved {state next : QueryState} {label : QueryLabel}
    (wellFormed : state.grid.WellFormed) (moved : Moved state label next) :
    next.grid.WellFormed := by
  rcases grid_of_moved moved with same | ⟨gridLabel, -, gridMoved⟩
  · rw [same]
    exact wellFormed
  · exact GridState.wellFormed_of_moved wellFormed gridMoved

/-- What holds of every query, at its place, holds of the one that moves and of
the others. -/
theorem queries_of_moved {state next : QueryState} {label : QueryLabel}
    (moved : Moved state label next)
    {before after : Nat → QueryCall → Prop}
    (initially :
      ∀ index query, state.queries[index]? = some query →
        before index query)
    (others : ∀ index query, before index query → after index query)
    (asked :
      ∀ qc, label = .query qc →
        after state.queries.length
          { qc, pc := .looking (state.grid.windowIds qc) [] })
    (looks :
      ∀ index qc list id ids cells,
        before index { qc, list, pc := .looking (id :: ids) cells } →
          after index
            { qc, list
              pc := .looking ids (cells ++ state.grid.cells[id]?.toList) })
    (haveLooked :
      ∀ index qc list cells,
        before index { qc, list, pc := .looking [] cells } →
          after index { qc, list, pc := .reading cells })
    (reads :
      ∀ index now qc list address cells cell,
        label = .advance index now →
          state.grid.heap[address]? = some cell →
            before index { qc, list, pc := .reading (address :: cells) } →
              after index
                { qc, list := cell.doQuery now qc list
                  pc := .reading cells })
    (finishes :
      ∀ index qc list, before index { qc, list, pc := .reading [] } →
        after index { qc, list := sortAndLimit qc list, pc := .returned })
    {index : Nat} {query : QueryCall}
    (found : next.queries[index]? = some query) : after index query := by
  have kept :
      ∀ other ofOther, state.queries[other]? = some ofOther →
        after other ofOther :=
    fun other ofOther present =>
      others other ofOther (initially other ofOther present)
  have set :
      ∀ {other : Nat} {moving : QueryCall},
        (state.queries.set other moving)[index]? = some query →
          after other moving → after index query := by
    intro other moving foundThere holds
    rcases Threads.getElem?_set_cases foundThere with
      ⟨rfl, rfl⟩ | ⟨-, unmoved⟩
    · exact holds
    · exact kept index query unmoved
  cases moved with
  | grid gridLabel grid gridMoved => exact kept index query found
  | query qc =>
      rcases Nat.lt_or_ge index state.queries.length with known | newest
      · dsimp only at found
        rw [List.getElem?_append_left known] at found
        exact kept index query found
      · obtain ⟨bound, -⟩ := List.getElem?_eq_some_iff.mp found
        have atEnd : index = state.queries.length := by
          simp only [List.length_append, List.length_singleton] at bound
          omega
        dsimp only at found
        rw [atEnd, List.getElem?_concat_length] at found
        rw [atEnd, ← Option.some.inj found]
        exact asked qc rfl
  | look moving now qc list id ids cells present =>
      exact
        set found (looks moving qc list id ids cells (initially _ _ present))
  | looked moving now qc list cells present =>
      exact
        set found (haveLooked moving qc list cells (initially _ _ present))
  | read moving now qc list address cells cell present inHeap =>
      exact
        set found
          (reads moving now qc list address cells cell rfl inHeap
            (initially _ _ present))
  | finish moving now qc list present =>
      exact set found (finishes moving qc list (initially _ _ present))

/-! ## Queries alone -/

/-- No call of `GlobalMap::update` takes a step, and the time stands still. -/
def Still (now : Int64) (_ : QueryState) : QueryLabel → Prop
  | .grid _ => False
  | .query _ => True
  | .advance _ time => time = now

instance (now : Int64) (state : QueryState) :
    DecidablePred (state.Still now)
  | .grid _ => inferInstanceAs (Decidable False)
  | .query _ => inferInstanceAs (Decidable True)
  | .advance _ time => inferInstanceAs (Decidable (time = now))

/-- The cells at some addresses. -/
def cellsAt (grid : GridState) (addresses : List Nat) : List MapCell :=
  addresses.filterMap fun address => grid.heap[address]?

theorem cellsAt_append (grid : GridState) (before after : List Nat) :
    cellsAt grid (before ++ after) =
      cellsAt grid before ++ cellsAt grid after :=
  List.filterMap_append

/-- What a query that is alone has done so far. -/
def OnCourse (grid : GridState) (map : GlobalMap) (now : Int64)
    (query : QueryCall) : Prop :=
  match query.pc with
  | .looking ids cells =>
      query.list = [] ∧
        map.getCells query.qc.window =
          cellsAt grid cells ++ ids.filterMap fun id => map.cells[id]?
  | .reading cells =>
      GlobalMap.doQuery now query.qc [] (map.getCells query.qc.window) =
        GlobalMap.doQuery now query.qc query.list (cellsAt grid cells)
  | .returned => query.list = map.spatialQuery now [] query.qc

theorem findMatches_eq (map : GlobalMap) (now : Int64)
    (list : List LocationDetail) (qc : QueryCase) :
    map.findMatches now list qc =
      GlobalMap.doQuery now qc list (map.getCells qc.window) := by
  cases shape : qc.sqt with
  | byDistance =>
      simp only [GlobalMap.findMatches, QueryCase.window, shape]
      rfl
  | byRectangle =>
      simp only [GlobalMap.findMatches, QueryCase.window, shape]
      rfl

variable {grid : GridState} {map : GlobalMap} {now : Int64}

theorem onCourse_asked (represents : grid.Represents map)
    (qc : QueryCase) :
    OnCourse grid map now
      { qc, pc := .looking (grid.windowIds qc) [] } := by
  refine ⟨rfl, ?_⟩
  have sameIds : grid.windowIds qc = map.windowIds qc.window := by
    rw [GridState.windowIds, represents.props]
    rfl
  rw [sameIds]
  rfl

/-- The cell that `_cells` maps an id to is the one at its address. -/
theorem cellsAt_toList (represents : grid.Represents map)
    (addressed : grid.Addressed) (id : MapCellId) :
    cellsAt grid grid.cells[id]?.toList = map.cells[id]?.toList := by
  rw [← represents.cells, GridState.cellAt?]
  cases mapped : grid.cells[id]? with
  | none => rfl
  | some address =>
      have inHeap := List.getElem?_eq_getElem (addressed id address mapped)
      rw [cellsAt, Option.toList_some, List.filterMap_cons, inHeap,
        Option.bind_some, inHeap]
      rfl

/-- Every query is on its course. -/
def AllOnCourse (map : GlobalMap) (now : Int64) (state : QueryState) :
    Prop :=
  ∀ (index : Nat) (query : QueryCall),
    state.queries[index]? = some query →
      OnCourse state.grid map now query

theorem onCourse_of_moved {state next : QueryState} {label : QueryLabel}
    (addressed : state.grid.Addressed)
    (represents : state.grid.Represents map)
    (onCourse : state.AllOnCourse map now)
    (still : state.Still now label) (moved : Moved state label next) :
    next.grid = state.grid ∧ next.AllOnCourse map now := by
  have sameGrid : next.grid = state.grid := by
    rcases grid_of_moved moved with same | ⟨gridLabel, rfl, -⟩
    · exact same
    · exact still.elim
  refine ⟨sameGrid, fun index query => ?_⟩
  rw [sameGrid]
  refine
    @queries_of_moved state next label moved
      (fun _ => OnCourse state.grid map now)
      (fun _ => OnCourse state.grid map now)
      onCourse (fun _ _ => id) ?_ ?_ ?_ ?_ ?_ index query
  · intro qc _
    exact onCourse_asked represents qc
  · rintro - qc list id ids cells ⟨isEmpty, course⟩
    refine ⟨isEmpty, ?_⟩
    rw [course, cellsAt_append, List.append_assoc,
      cellsAt_toList represents addressed, List.filterMap_cons]
    cases map.cells[id]? <;> rfl
  · rintro - qc list cells ⟨isEmpty, course⟩
    dsimp only at isEmpty course
    rw [OnCourse, isEmpty, course, List.filterMap_nil, List.append_nil]
  · intro _ time qc list address cells cell isAdvance found course
    rw [isAdvance] at still
    rw [OnCourse] at course ⊢
    dsimp only at course ⊢
    rw [course, cellsAt, List.filterMap_cons, found, ← still]
    rfl
  · intro _ qc list course
    rw [OnCourse] at course ⊢
    dsimp only at course ⊢
    rw [spatialQuery_eq_sortAndLimit, findMatches_eq, course]
    rfl

/-- Queries that run among each other, but not among updates, and in one
second, answer what the grid answers to each of them alone. -/
theorem queries_agree_with_map {start final : QueryState}
    {labels : List QueryLabel} (noQueries : start.queries = [])
    (addressed : start.grid.Addressed)
    (represents : start.grid.Represents map)
    (execution : run step start labels = some final)
    (still : Along step (Still now) start labels) :
    ∀ query ∈ final.queries, query.pc = .returned →
      query.list = map.spatialQuery now [] query.qc := by
  have onCourse :
      final.grid = start.grid ∧ final.AllOnCourse map now := by
    refine
      @invariant_of_along QueryState QueryLabel step (Still now)
        (fun state => state.grid = start.grid ∧
          state.AllOnCourse map now)
        ?_ start final labels ?_ still execution
    · rintro state label next ⟨same, onCourse⟩ isStill stepped
      rw [← same] at addressed represents ⊢
      exact
        onCourse_of_moved addressed represents onCourse isStill
          (moved_of_step stepped)
    · refine ⟨rfl, fun index query found => ?_⟩
      rw [noQueries] at found
      cases found
  intro query member returned
  obtain ⟨index, found⟩ := List.mem_iff_getElem?.mp member
  have course := onCourse.2 index query found
  rw [OnCourse, returned] at course
  exact course

/-- A grid with one record, in its first cell. -/
def gridOfOne : GridState where
  cells := TreeMap.empty.insert 0 0
  heap := [MapCell.empty.update (sampleLocation 2000 70 10)]

/-- The first point of the grid. -/
def cornerQuery (elapsed : UInt32) : QueryCase where
  rect := { x := 70, y := 10, width := 0, height := 0 }
  sqt := .byRectangle
  qot := .byUnsorted
  elapsed
  groupId := ""
  maxnum := 5

/-- Two queries that take their steps in turn. -/
def inTurn : List QueryLabel :=
  [.query (cornerQuery unlimited), .query (cornerQuery 5), .advance 0 0,
    .advance 1 0, .advance 0 0, .advance 1 0, .advance 1 0, .advance 0 0,
    .advance 0 0, .advance 1 0]

theorem queries_agree_with_map_in_turn :
    ∃ final map,
      run step { grid := gridOfOne } inTurn = some final ∧
        final.queries.map (fun query => query.list.length) = [1, 0] ∧
          ∀ query ∈ final.queries, query.pc = .returned →
            query.list = GlobalMap.spatialQuery map 0 [] query.qc := by
  let map : GlobalMap :=
    { cells :=
        TreeMap.empty.insert 0
          (MapCell.empty.update (sampleLocation 2000 70 10)) }
  have addressed : gridOfOne.Addressed := by
    intro id address mapped
    rw [gridOfOne, TreeMap.getElem?_insert] at mapped
    split at mapped
    · rw [← Option.some.inj mapped]
      exact Nat.zero_lt_one
    · simp at mapped
  have represents : gridOfOne.Represents map := by
    refine ⟨rfl, ?_⟩
    intro id
    rw [GridState.cellAt?, gridOfOne, TreeMap.getElem?_insert,
      TreeMap.getElem?_insert]
    split
    · rfl
    · simp
  exact
    ⟨outcome step { grid := gridOfOne } inTurn (by decide +kernel), map,
      run_eq_outcome _ _ _, by decide +kernel,
      queries_agree_with_map rfl addressed represents
        (run_eq_outcome _ _ _) (by decide +kernel)⟩

end QueryState

end LocationServer

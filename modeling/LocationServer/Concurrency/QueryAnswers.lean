import LocationServer.Concurrency.QueryCalls

/-!
# What a query among updates answers

A query that reads its cells while updates go on is no snapshot of the grid.
It answers nothing that no update has stored, no device twice from one cell,
and every record that was in its cell when the query began and stays there
until the query has returned.
-/

namespace LocationServer

open Std StepSystem

/-! ## The cells of an id -/

namespace GridState

/-- Every cell belongs to one id, and holds records that calls have stored. -/
structure Homed (home : Nat → MapCellId) (state : GridState) : Prop where
  cells :
    ∀ (id : MapCellId) (address : Nat),
      state.cells[id]? = some address → home address = id
  calls :
    ∀ call ∈ state.calls, ∀ address,
      call.address? = some address → home address = state.cellId call.loc
  records :
    ∀ (address : Nat) (cell : MapCell) (devId : DeviceId)
      (loc : LocationDetail),
      state.heap[address]? = some cell → cell.find? devId = some loc →
        ∃ call ∈ state.calls, call.loc = loc ∧ call.pc = .returned address

variable {state next : GridState} {label : GridLabel}

theorem props_of_moved (moved : Moved state label next) :
    next.props = state.props := by
  cases moved <;> rfl

theorem heap_length_of_moved (moved : Moved state label next) :
    state.heap.length ≤ next.heap.length := by
  cases moved with
  | insert index loc present =>
      simp only [List.length_append]
      exact Nat.le_add_right _ _
  | store index loc address present =>
      simp only [List.length_modify, Nat.le_refl]
  | call loc => exact Nat.le_refl _
  | found index loc address present looked => exact Nat.le_refl _
  | missed index loc present looked => exact Nat.le_refl _

/-- A call that has returned stays among the calls. -/
theorem returned_of_moved (moved : Moved state label next)
    {loc : LocationDetail} {address : Nat}
    (returned :
      ∃ call ∈ state.calls, call.loc = loc ∧ call.pc = .returned address) :
    ∃ call ∈ next.calls, call.loc = loc ∧ call.pc = .returned address := by
  cases moved with
  | call new =>
      obtain ⟨call, member, isReturned⟩ := returned
      exact ⟨call, List.mem_append_left _ member, isReturned⟩
  | found index loc address present looked =>
      exact
        Threads.exists_mem_set present (fun holds => by cases holds.2)
          returned
  | missed index loc present looked =>
      exact
        Threads.exists_mem_set present (fun holds => by cases holds.2)
          returned
  | insert index loc present =>
      exact
        Threads.exists_mem_set present (fun holds => by cases holds.2)
          returned
  | store index loc address present =>
      exact
        Threads.exists_mem_set present (fun holds => by cases holds.2)
          returned

theorem homed_start (props : GlobalMap.Properties) :
    Homed (fun _ => 0) { props } := by
  refine ⟨?_, ?_, ?_⟩
  · intro id address mapped
    simp at mapped
  · intro call member
    cases member
  · intro address cell devId loc found
    cases found

/-- The records of a heap in which no cell has changed. -/
theorem Homed.records_of_same {home : Nat → MapCellId}
    (homed : state.Homed home) (moved : Moved state label next)
    (sameHeap : next.heap = state.heap) (address : Nat) (cell : MapCell)
    (devId : DeviceId) (loc : LocationDetail)
    (found : next.heap[address]? = some cell)
    (filed : cell.find? devId = some loc) :
    ∃ call ∈ next.calls, call.loc = loc ∧ call.pc = .returned address := by
  rw [sameHeap] at found
  exact
    returned_of_moved moved (homed.records address cell devId loc found filed)

/-- A new cell belongs to the id under which it is inserted, and the others
stay with theirs. -/
theorem homed_of_moved {home : Nat → MapCellId}
    (wellFormed : state.WellFormed) (homed : state.Homed home)
    (moved : Moved state label next) :
    ∃ later, next.Homed later ∧
      ∀ address < state.heap.length, later address = home address := by
  have records := homed.records_of_same moved
  cases moved with
  | call loc =>
      refine ⟨home, ⟨homed.cells, ?_, records rfl⟩, fun _ _ => rfl⟩
      exact
        Threads.forall_mem_concat homed.calls fun _ chose => by cases chose
  | found index loc address present looked =>
      refine ⟨home, ⟨homed.cells, ?_, records rfl⟩, fun _ _ => rfl⟩
      apply Threads.forall_mem_set homed.calls
      intro chosen chose
      cases chose
      exact homed.cells _ _ looked
  | missed index loc present looked =>
      refine ⟨home, ⟨homed.cells, ?_, records rfl⟩, fun _ _ => rfl⟩
      exact
        Threads.forall_mem_set homed.calls fun _ chose => by cases chose
  | insert index loc present =>
      refine
        ⟨Function.update home state.heap.length (state.cellId loc),
          ⟨?_, ?_, ?_⟩, ?_⟩
      · intro id address mapped
        rcases getElem?_cells_insert_eq_some_iff.mp mapped with
          ⟨isId, isNew⟩ | ⟨-, older⟩
        · rw [← isNew, Function.update_self, isId]
        · have bound := wellFormed.addressed id address older
          rw [Function.update_of_ne (Nat.ne_of_lt bound)]
          exact homed.cells id address older
      · apply Threads.forall_mem_set
        · intro call member address chose
          have bound := wellFormed.chosenAddressed call member address chose
          rw [Function.update_of_ne (Nat.ne_of_lt bound)]
          exact homed.calls call member address chose
        · intro address chose
          cases chose
          exact Function.update_self _ _ _
      · intro address cell devId stored found filed
        rcases Nat.lt_or_ge address state.heap.length with known | newest
        · dsimp only at found
          rw [List.getElem?_append_left known] at found
          exact
            returned_of_moved (Moved.insert index loc present)
              (homed.records address cell devId stored found filed)
        · dsimp only at found
          rw [List.getElem?_append_right newest] at found
          rw [List.mem_singleton.mp (List.mem_of_getElem? found),
            MapCell.find?_empty] at filed
          cases filed
      · intro address bound
        exact Function.update_of_ne (Nat.ne_of_lt bound) _ _
  | store index loc chosen present =>
      refine ⟨home, ⟨homed.cells, ?_, ?_⟩, fun _ _ => rfl⟩
      · apply Threads.forall_mem_set homed.calls
        intro address chose
        cases chose
        exact
          homed.calls _ (List.mem_of_getElem? present) chosen rfl
      · intro address cell devId stored found filed
        have older :
            ∀ before : MapCell, state.heap[address]? = some before →
              before.find? devId = some stored →
                ∃ call ∈ state.calls.set index
                  { loc, pc := .returned chosen },
                  call.loc = stored ∧ call.pc = .returned address :=
          fun before foundBefore filedBefore =>
            returned_of_moved (Moved.store index loc chosen present)
              (homed.records address before devId stored foundBefore
                filedBefore)
        dsimp only at found
        rw [List.getElem?_modify] at found
        obtain ⟨before, foundBefore, isCell⟩ := Option.map_eq_some_iff.mp found
        by_cases here : chosen = address
        · rw [if_pos here] at isCell
          rw [← isCell, MapCell.find?_update] at filed
          split at filed
          · rw [← Option.some.inj filed, ← here]
            exact ⟨_, Threads.mem_set_self present, rfl, rfl⟩
          · exact older before foundBefore filed
        · rw [if_neg here] at isCell
          rw [← isCell] at filed
          exact older before foundBefore filed

/-- The cell and the device under which a record is filed. -/
def slot (state : GridState) (loc : LocationDetail) :
    MapCellId × DeviceId :=
  (state.cellId loc, loc.devId)

end GridState

/-! ## The sort and the limit -/

/-- A prefix of a permutation of what was found. -/
theorem sortAndLimit_spec (qc : QueryCase) (found : List LocationDetail) :
    ∃ sorted : List LocationDetail, sorted.Perm found ∧
      sortAndLimit qc found = sorted.take qc.maxnum.toNat := by
  refine ⟨_, ?_, Selection.cut_eq_take _ _⟩
  split
  · exact List.mergeSort_perm _ _
  · exact List.Perm.refl _

theorem bestOf_sortAndLimit {qc : QueryCase} (keyed : qc.ComparesKeys)
    (found : List LocationDetail) :
    Selection.BestOf (fun a b => qc.sortKey a ≤ qc.sortKey b)
      qc.maxnum.toNat found (sortAndLimit qc found) := by
  have sorts : qc.qot ≠ .byUnsorted := by
    rcases keyed with byTime | byDistance
    · simp [byTime]
    · simp [byDistance]
  have best :=
    Selection.bestOf_mergeSort (sorting_of_comparesKeys keyed)
      qc.maxnum.toNat found
  simp only [notAfter_compareOrderQuery_iff keyed] at best
  rw [sortAndLimit, if_pos sorts, Selection.cut_eq_take]
  exact best

/-- What the limit cuts off comes, in an order by keys, after what it keeps. -/
theorem mem_sortAndLimit_or_full {qc : QueryCase}
    {found : List LocationDetail} {loc : LocationDetail}
    (member : loc ∈ found) :
    loc ∈ sortAndLimit qc found ∨
      ((sortAndLimit qc found).length = qc.maxnum.toNat ∧
        (qc.ComparesKeys → ∀ other ∈ sortAndLimit qc found,
          qc.sortKey other ≤ qc.sortKey loc)) := by
  by_cases kept : loc ∈ sortAndLimit qc found
  · exact Or.inl kept
  · right
    obtain ⟨sorted, permuted, isTaken⟩ := sortAndLimit_spec qc found
    have isSorted := permuted.mem_iff.mpr member
    refine ⟨?_, ?_⟩
    · rw [isTaken] at kept ⊢
      rw [List.length_take]
      apply Nat.min_eq_left
      by_contra short
      rw [List.take_of_length_le (by omega)] at kept
      exact kept isSorted
    · intro keyed other isOther
      obtain ⟨left, whole, before⟩ :=
        (bestOf_sortAndLimit keyed found).split
      rcases List.mem_append.mp (whole.mem_iff.mpr member) with
        inKept | isLeft
      · exact absurd inKept kept
      · exact before other isOther loc isLeft

/-! ## What queries find -/

namespace QueryState

/-- The ids that are still to be looked up, and those whose cells are still to
be read. -/
def pending (home : Nat → MapCellId) : QueryPc → List MapCellId
  | .looking ids cells => cells.map home ++ ids
  | .reading cells => cells.map home
  | .returned => []

/-- The cells that a query has still to read. -/
def unread : QueryPc → List Nat
  | .looking _ cells => cells
  | .reading cells => cells
  | .returned => []

/-- A call of `GlobalMap::update` has stored the record in a cell of the
window, and the record passed the tests of the query. -/
def Found (grid : GridState) (qc : QueryCase) (times : Int64 → Prop)
    (loc : LocationDetail) : Prop :=
  (∃ call ∈ grid.calls, call.loc = loc ∧ call.hasReturned = true) ∧
    grid.cellId loc ∈ grid.windowIds qc ∧
      ∃ now, times now ∧ MapCell.Accepts now qc loc

/-- What a query has found so far. -/
structure Answers (home : Nat → MapCellId) (grid : GridState)
    (times : Int64 → Prop) (query : QueryCall) : Prop where
  addressed :
    ∀ address ∈ unread query.pc, address < grid.heap.length
  window :
    ∀ id ∈ pending home query.pc, id ∈ grid.windowIds query.qc
  nodup : (pending home query.pc).Nodup
  found : ∀ loc ∈ query.list, Found grid query.qc times loc
  slots : (query.list.map grid.slot).Nodup
  apart : ∀ loc ∈ query.list, grid.cellId loc ∉ pending home query.pc
  limited :
    query.pc = .returned → query.list.length ≤ query.qc.maxnum.toNat

theorem found_of_moved {grid next : GridState} {label : GridLabel}
    (moved : GridState.Moved grid label next) {qc : QueryCase}
    {times later : Int64 → Prop} (more : ∀ now, times now → later now)
    {loc : LocationDetail} (found : Found grid qc times loc) :
    Found next qc later loc := by
  obtain ⟨⟨call, member, isLoc, returned⟩, inWindow, now, isTime, accepts⟩ :=
    found
  obtain ⟨address, isReturned⟩ := GridCall.hasReturned_iff.mp returned
  obtain ⟨after, afterMember, afterLoc, afterReturned⟩ :=
    GridState.returned_of_moved moved ⟨call, member, isLoc, isReturned⟩
  refine ⟨⟨after, afterMember, afterLoc, ?_⟩, ?_, now, more now isTime, accepts⟩
  · exact GridCall.hasReturned_iff.mpr ⟨address, afterReturned⟩
  · rw [GridState.windowIds, GridState.cellId, GridState.props_of_moved moved]
    exact inWindow

namespace Answers

variable {home later : Nat → MapCellId} {grid next : GridState}
variable {times more : Int64 → Prop} {query : QueryCall}

theorem pending_congr (agree : ∀ address ∈ unread query.pc,
    later address = home address) :
    pending later query.pc = pending home query.pc := by
  cases pc : query.pc with
  | looking ids cells =>
      rw [pc] at agree
      exact congrArg (· ++ ids) (List.map_congr_left agree)
  | reading cells =>
      rw [pc] at agree
      exact List.map_congr_left agree
  | returned => rfl

/-- A step of an update leaves what a query has found and what it has still to
do. -/
theorem of_grid (answers : Answers home grid times query)
    {label : GridLabel} (moved : GridState.Moved grid label next)
    (agree : ∀ address < grid.heap.length, later address = home address)
    (longer : ∀ now, times now → more now) :
    Answers later next more query := by
  have samePending : pending later query.pc = pending home query.pc :=
    pending_congr fun address member =>
      agree address (answers.addressed address member)
  have sameProps := GridState.props_of_moved moved
  constructor
  · intro address member
    exact Nat.lt_of_lt_of_le (answers.addressed address member)
      (GridState.heap_length_of_moved moved)
  · rw [samePending, GridState.windowIds, sameProps]
    exact answers.window
  · rw [samePending]
    exact answers.nodup
  · intro loc member
    exact found_of_moved moved longer (answers.found loc member)
  · have sameSlot : next.slot = grid.slot := by
      funext loc
      rw [GridState.slot, GridState.slot, GridState.cellId, sameProps]
      rfl
    rw [sameSlot]
    exact answers.slots
  · rw [samePending]
    intro loc member
    rw [GridState.cellId, sameProps]
    exact answers.apart loc member
  · exact answers.limited

/-- Time passes. -/
theorem of_times (answers : Answers home grid times query)
    (longer : ∀ now, times now → more now) :
    Answers home grid more query :=
  { answers with
    found := by
      intro loc member
      obtain ⟨stored, inWindow, now, isTime, accepts⟩ :=
        answers.found loc member
      exact ⟨stored, inWindow, now, longer now isTime, accepts⟩ }

theorem asked (grid : GridState) (qc : QueryCase) :
    Answers home grid times { qc, pc := .looking (grid.windowIds qc) [] } := by
  constructor
  · intro address member
    cases member
  · intro id member
    exact member
  · exact GlobalMap.windowIds_nodup _ _
  · intro loc member
    cases member
  · exact List.nodup_nil
  · intro loc member
    cases member
  · intro returned
    cases returned

/-- A query goes on without finding anything. -/
theorem of_pending {qc : QueryCase} {list : List LocationDetail}
    {pc after : QueryPc} (answers : Answers home grid times { qc, list, pc })
    (fewer : (pending home after).Sublist (pending home pc))
    (addressed : ∀ address ∈ unread after, address < grid.heap.length)
    (notYet : after ≠ .returned) :
    Answers home grid times { qc, list, pc := after } where
  addressed := addressed
  window := fun id member => answers.window id (fewer.subset member)
  nodup := answers.nodup.sublist fewer
  found := answers.found
  slots := answers.slots
  apart := fun loc member waits =>
    answers.apart loc member (fewer.subset waits)
  limited := fun returned => absurd returned notYet

theorem looks (wellFormed : grid.WellFormed) (homed : grid.Homed home)
    {qc : QueryCase} {list : List LocationDetail} {id : MapCellId}
    {ids : List MapCellId} {cells : List Nat}
    (answers :
      Answers home grid times { qc, list, pc := .looking (id :: ids) cells }) :
    Answers home grid times
      { qc, list
        pc := .looking ids (cells ++ grid.cells[id]?.toList) } := by
  refine answers.of_pending ?_ ?_ QueryPc.noConfusion
  · rw [pending, pending, List.map_append, List.append_assoc]
    refine List.Sublist.append (List.Sublist.refl _) ?_
    cases mapped : grid.cells[id]? with
    | none => exact List.sublist_cons_self id ids
    | some address =>
        rw [Option.toList_some, List.map_singleton,
          homed.cells id address mapped]
        exact List.Sublist.refl _
  · intro address member
    rcases List.mem_append.mp member with earlier | latest
    · exact answers.addressed address earlier
    · exact wellFormed.addressed id address (Option.mem_toList.mp latest)

theorem haveLooked {qc : QueryCase} {list : List LocationDetail}
    {cells : List Nat}
    (answers : Answers home grid times { qc, list, pc := .looking [] cells }) :
    Answers home grid times { qc, list, pc := .reading cells } := by
  refine answers.of_pending ?_ answers.addressed QueryPc.noConfusion
  rw [pending, pending, List.append_nil]

theorem reads (homed : grid.Homed home) {now : Int64} (isTime : times now)
    {qc : QueryCase} {list : List LocationDetail} {address : Nat}
    {cells : List Nat} {cell : MapCell}
    (inHeap : grid.heap[address]? = some cell)
    (answers :
      Answers home grid times
        { qc, list, pc := .reading (address :: cells) }) :
    Answers home grid times
      { qc, list := cell.doQuery now qc list, pc := .reading cells } := by
  have filed :
      ∀ loc ∈ cell.selected now qc,
        (∃ call ∈ grid.calls, call.loc = loc ∧ call.hasReturned = true) ∧
          grid.cellId loc = home address ∧ MapCell.Accepts now qc loc := by
    intro loc member
    obtain ⟨inCell, accepts⟩ := MapCell.mem_selected_iff.mp member
    obtain ⟨call, isCall, rfl, returned⟩ :=
      homed.records address cell loc.devId loc inHeap inCell
    refine ⟨⟨call, isCall, rfl, ?_⟩, ?_, accepts⟩
    · exact GridCall.hasReturned_iff.mpr ⟨address, returned⟩
    · exact
        (homed.calls call isCall address
          (by rw [GridCall.address?, returned])).symm
  have fewer :
      (pending home (.reading cells)).Sublist
        (pending home (.reading (address :: cells))) :=
    List.sublist_cons_self _ _
  have first :
      home address ∈ pending home (.reading (address :: cells)) :=
    List.Mem.head _
  have rest : home address ∉ pending home (.reading cells) :=
    (List.nodup_cons.mp answers.nodup).1
  rw [MapCell.doQuery_eq]
  constructor
  · exact fun other member =>
      answers.addressed other (List.mem_cons_of_mem address member)
  · exact fun id member => answers.window id (fewer.subset member)
  · exact answers.nodup.sublist fewer
  · intro loc member
    rcases List.mem_append.mp member with earlier | latest
    · exact answers.found loc earlier
    · obtain ⟨stored, isHome, accepts⟩ := filed loc latest
      refine ⟨stored, ?_, now, isTime, accepts⟩
      rw [isHome]
      exact answers.window _ first
  · rw [List.map_append]
    refine List.nodup_append.mpr ⟨answers.slots, ?_, ?_⟩
    · have devices := cell.selected_devIds_nodup now qc
      rw [List.Nodup, List.pairwise_map] at devices ⊢
      refine devices.imp ?_
      intro left right different same
      exact different (congrArg Prod.snd same)
    · intro slot earlier other latest same
      obtain ⟨loc, isOld, rfl⟩ := List.mem_map.mp earlier
      obtain ⟨new, isNew, rfl⟩ := List.mem_map.mp latest
      have sameCell : grid.cellId loc = grid.cellId new :=
        congrArg Prod.fst same
      apply answers.apart loc isOld
      rw [sameCell, (filed new isNew).2.1]
      exact first
  · intro loc member waits
    rcases List.mem_append.mp member with earlier | latest
    · exact answers.apart loc earlier (fewer.subset waits)
    · rw [(filed loc latest).2.1] at waits
      exact rest waits
  · exact fun returned => QueryPc.noConfusion returned

theorem finishes {qc : QueryCase} {list : List LocationDetail}
    (answers : Answers home grid times { qc, list, pc := .reading [] }) :
    Answers home grid times
      { qc, list := sortAndLimit qc list, pc := .returned } := by
  obtain ⟨sorted, permuted, isTaken⟩ := sortAndLimit_spec qc list
  have fewer : ∀ loc ∈ sortAndLimit qc list, loc ∈ list := by
    intro loc member
    rw [isTaken] at member
    exact permuted.mem_iff.mp (List.mem_of_mem_take member)
  constructor
  · intro address member
    cases member
  · intro id member
    cases member
  · exact List.nodup_nil
  · exact fun loc member => answers.found loc (fewer loc member)
  · rw [isTaken, List.map_take]
    refine List.Nodup.sublist (List.take_sublist _ _) ?_
    exact ((permuted.map grid.slot).nodup_iff).mpr answers.slots
  · intro loc member waits
    cases waits
  · intro _
    rw [isTaken]
    exact List.length_take_le _ _

end Answers

/-- The times at which a query has read its cells. -/
def readAt (history : List QueryLabel) (index : Nat) (now : Int64) : Prop :=
  .advance index now ∈ history

/-- What holds of a run of updates and queries. -/
structure Answered (history : List QueryLabel) (state : QueryState) :
    Prop where
  wellFormed : state.grid.WellFormed
  answers :
    ∃ home, state.grid.Homed home ∧
      ∀ index query, state.queries[index]? = some query →
        Answers home state.grid (readAt history index) query

theorem answered_start (props : GlobalMap.Properties) :
    Answered [] { grid := { props } } where
  wellFormed := GridState.wellFormed_of_idle (GridState.idle_empty props)
  answers := by
    refine ⟨_, GridState.homed_start props, ?_⟩
    intro index query found
    cases found

theorem Answered.of_moved {history : List QueryLabel}
    {state next : QueryState} {label : QueryLabel}
    (answered : Answered history state) (moved : Moved state label next) :
    Answered (history ++ [label]) next := by
  have wellFormed := answered.wellFormed
  obtain ⟨home, homed, answers⟩ := answered.answers
  have longer :
      ∀ index now, readAt history index now →
        readAt (history ++ [label]) index now :=
    fun index now member => List.mem_append_left _ member
  refine ⟨wellFormed_of_moved wellFormed moved, ?_⟩
  rcases grid_of_moved moved with sameGrid | ⟨gridLabel, rfl, gridMoved⟩
  · refine ⟨home, sameGrid.symm ▸ homed, fun index query => ?_⟩
    rw [sameGrid]
    refine
      @queries_of_moved state next label moved
        (fun index => Answers home state.grid (readAt history index))
        (fun index =>
          Answers home state.grid (readAt (history ++ [label]) index))
        answers ?_ ?_ ?_ ?_ ?_ ?_ index query
    · intro other ofOther holds
      exact holds.of_times (longer other)
    · exact fun qc _ => Answers.asked state.grid qc
    · intro other qc list id ids cells holds
      exact (holds.looks wellFormed homed).of_times (longer other)
    · intro other qc list cells holds
      exact holds.haveLooked.of_times (longer other)
    · intro other now qc list address cells cell isAdvance inHeap holds
      refine (holds.of_times (longer other)).reads homed ?_ inHeap
      rw [isAdvance]
      exact List.mem_append_right _ (List.Mem.head [])
    · intro other qc list holds
      exact holds.finishes.of_times (longer other)
  · obtain ⟨later, laterHomed, agree⟩ :=
      GridState.homed_of_moved wellFormed homed gridMoved
    refine ⟨later, laterHomed, fun index query found => ?_⟩
    have same : next.queries = state.queries := by
      cases moved
      rfl
    rw [same] at found
    exact
      (answers index query found).of_grid gridMoved agree (longer index)

/-- Among whatever updates and other queries, a query returns no more records
than its limit, no device twice from one cell, and only records that a call of
`GlobalMap::update` had stored in a cell of the window and that passed the
tests when the query read the cell. -/
theorem answers_are_stored_records {props : GlobalMap.Properties}
    {labels : List QueryLabel} {final : QueryState}
    (execution : run step { grid := { props } } labels = some final)
    (index : Nat) (query : QueryCall)
    (found : final.queries[index]? = some query)
    (returned : query.pc = .returned) :
    query.list.length ≤ query.qc.maxnum.toNat ∧
      (query.list.map final.grid.slot).Nodup ∧
        ∀ loc ∈ query.list,
          (∃ call ∈ final.grid.calls,
              call.loc = loc ∧ call.hasReturned = true) ∧
            final.grid.cellId loc ∈ final.grid.windowIds query.qc ∧
              ∃ now, .advance index now ∈ labels ∧
                MapCell.Accepts now query.qc loc := by
  have answered : Answered labels final :=
    history_invariant
      (fun _ _ _ _ answered stepped =>
        answered.of_moved (moved_of_step stepped))
      (answered_start props) execution
  obtain ⟨home, -, answers⟩ := answered.answers
  have holds := answers index query found
  exact ⟨holds.limited returned, holds.slots, holds.found⟩

/-- An update between the look-up and the reading of its cell. -/
def updatedBetween : List QueryLabel :=
  [.grid (.call (sampleLocation 2000 70 10)), .grid (.step 0),
    .grid (.step 0), .query (cornerQuery unlimited), .advance 0 0,
    .grid (.step 0), .advance 0 0, .advance 0 0, .advance 0 0]

theorem answers_are_stored_records_between :
    ∃ final,
      run step { grid := { props := {} } } updatedBetween = some final ∧
        final.queries.map (fun query => query.list.length) = [1] ∧
          ∀ query, final.queries[0]? = some query →
            query.pc = .returned → ∀ loc ∈ query.list,
              final.grid.cellId loc ∈ final.grid.windowIds query.qc := by
  let final :=
    outcome step { grid := { props := {} } } updatedBetween
      (by decide +kernel)
  have execution :
      run step { grid := { props := {} } } updatedBetween = some final :=
    run_eq_outcome _ _ _
  refine ⟨final, execution, by decide +kernel, ?_⟩
  intro query found returned loc member
  exact
    ((answers_are_stored_records execution 0 query found returned).2.2 loc
      member).2.1

/-! ## Records that stay in their cells -/

section Staying

variable (id : MapCellId) (loc : LocationDetail) (qc : QueryCase)
variable (index : Nat)

/-- No step replaces the cell of the id, stores another record of the device in
it, or reads a cell for the query at a time at which the record does not pass
its tests. -/
def Undisturbed (state : QueryState) : QueryLabel → Prop
  | .grid (.call _) => True
  | .grid (.step call) =>
      ∀ moving ∈ state.grid.calls[call]?,
        (moving.pc = .missed → state.grid.cellId moving.loc ≠ id) ∧
          (moving.loc.devId = loc.devId →
            ∀ address ∈ moving.address?,
              state.grid.cells[id]? ≠ some address)
  | .query _ => True
  | .advance moving now => moving = index → MapCell.Accepts now qc loc

instance (state : QueryState) :
    DecidablePred (state.Undisturbed id loc qc index)
  | .grid (.call _) => inferInstanceAs (Decidable True)
  | .grid (.step _) => inferInstanceAs (Decidable (∀ moving ∈ _, _))
  | .query _ => inferInstanceAs (Decidable True)
  | .advance _ _ => inferInstanceAs (Decidable (_ → _))

/-- A query has found a record in the cell of an id, or will come to it. -/
def WillFind (address : Nat) (query : QueryCall) : Prop :=
  query.qc = qc ∧
    match query.pc with
    | .looking ids cells => id ∈ ids ∨ address ∈ cells
    | .reading cells => address ∈ cells ∨ loc ∈ query.list
    | .returned =>
        ∃ found, query.list = sortAndLimit qc found ∧ loc ∈ found

/-- The record is in its cell, and the query will find it. -/
structure Staying (address : Nat) (state : QueryState) : Prop where
  wellFormed : state.grid.WellFormed
  mapped : state.grid.cells[id]? = some address
  stored :
    ∃ cell, state.grid.heap[address]? = some cell ∧
      cell.find? loc.devId = some loc
  asked : index < state.queries.length
  found :
    ∀ query, state.queries[index]? = some query →
      WillFind id loc qc address query

variable {id : MapCellId} {loc : LocationDetail} {qc : QueryCase}
variable {index : Nat} {address : Nat} {state next : QueryState}
variable {label : QueryLabel}

theorem Staying.slot_of_moved (staying : Staying id loc qc index address state)
    {gridLabel : GridLabel}
    (undisturbed : state.Undisturbed id loc qc index (.grid gridLabel))
    {grid : GridState} (moved : GridState.Moved state.grid gridLabel grid) :
    grid.cells[id]? = some address ∧
      ∃ cell, grid.heap[address]? = some cell ∧
        cell.find? loc.devId = some loc := by
  obtain ⟨cell, inHeap, filed⟩ := staying.stored
  obtain ⟨bound, -⟩ := List.getElem?_eq_some_iff.mp inHeap
  cases moved with
  | call new => exact ⟨staying.mapped, cell, inHeap, filed⟩
  | found call new chosen present looked =>
      exact ⟨staying.mapped, cell, inHeap, filed⟩
  | missed call new present looked =>
      exact ⟨staying.mapped, cell, inHeap, filed⟩
  | insert call new present =>
      have elsewhere := (undisturbed _ present).1 rfl
      refine ⟨?_, cell, ?_, filed⟩
      · exact
          GridState.getElem?_cells_insert_eq_some_iff.mpr
            (Or.inr ⟨elsewhere, staying.mapped⟩)
      · dsimp only
        rw [List.getElem?_append_left bound]
        exact inHeap
  | store call new chosen present =>
      refine ⟨staying.mapped, ?_⟩
      dsimp only
      rw [List.getElem?_modify, inHeap]
      by_cases here : chosen = address
      · refine ⟨cell.update new, congrArg some (if_pos here), ?_⟩
        rw [MapCell.find?_update, if_neg]
        · exact filed
        · intro sameDevice
          refine (undisturbed _ present).2 sameDevice chosen rfl ?_
          rw [here]
          exact staying.mapped
      · exact ⟨cell, congrArg some (if_neg here), filed⟩

theorem queries_length_of_moved (moved : Moved state label next) :
    state.queries.length ≤ next.queries.length := by
  cases moved with
  | query new =>
      simp only [List.length_append]
      exact Nat.le_add_right _ _
  | grid gridLabel grid gridMoved => exact Nat.le_refl _
  | look other now new list first ids cells present =>
      simp only [List.length_set, Nat.le_refl]
  | looked other now new list cells present =>
      simp only [List.length_set, Nat.le_refl]
  | read other now new list first cells cell present inHeap =>
      simp only [List.length_set, Nat.le_refl]
  | finish other now new list present =>
      simp only [List.length_set, Nat.le_refl]

theorem Staying.found_of_moved
    (staying : Staying id loc qc index address state)
    (undisturbed : state.Undisturbed id loc qc index label)
    (moved : Moved state label next) (query : QueryCall)
    (found : next.queries[index]? = some query) :
    WillFind id loc qc address query := by
  refine
    @queries_of_moved state next label moved
      (fun other ofOther =>
        other = index → WillFind id loc qc address ofOther)
      (fun other ofOther =>
        other = index → WillFind id loc qc address ofOther)
      ?_ (fun _ _ holds => holds) ?_ ?_ ?_ ?_ ?_ index query found rfl
  · rintro other ofOther present rfl
    exact staying.found ofOther present
  · rintro new - isIndex
    exact absurd staying.asked (by rw [isIndex]; exact Nat.lt_irrefl _)
  · intro other new list first ids cells willFind isIndex
    obtain ⟨isQuery, course⟩ := willFind isIndex
    refine ⟨isQuery, ?_⟩
    rcases course with inIds | inCells
    · rcases List.mem_cons.mp inIds with rfl | inRest
      · right
        rw [staying.mapped]
        exact List.mem_append_right _ (List.Mem.head [])
      · exact Or.inl inRest
    · exact Or.inr (List.mem_append_left _ inCells)
  · intro other new list cells willFind isIndex
    obtain ⟨isQuery, course⟩ := willFind isIndex
    refine ⟨isQuery, ?_⟩
    rcases course with inIds | inCells
    · cases inIds
    · exact Or.inl inCells
  · intro other now new list first cells cell isAdvance inHeap willFind
      isIndex
    obtain ⟨isQuery, course⟩ := willFind isIndex
    refine ⟨isQuery, ?_⟩
    dsimp only at isQuery course ⊢
    rw [MapCell.doQuery_eq]
    rcases course with inCells | inList
    · rcases List.mem_cons.mp inCells with rfl | inRest
      · right
        obtain ⟨same, foundSame, filed⟩ := staying.stored
        obtain rfl := Option.some.inj (inHeap.symm.trans foundSame)
        rw [isAdvance] at undisturbed
        rw [isQuery]
        exact
          List.mem_append_right _
            (MapCell.mem_selected_iff.mpr ⟨filed, undisturbed isIndex⟩)
      · exact Or.inl inRest
    · exact Or.inr (List.mem_append_left _ inList)
  · intro other new list willFind isIndex
    obtain ⟨isQuery, course⟩ := willFind isIndex
    refine ⟨isQuery, list, congrArg (sortAndLimit · list) isQuery, ?_⟩
    rcases course with inCells | inList
    · cases inCells
    · exact inList

theorem Staying.of_moved (staying : Staying id loc qc index address state)
    (undisturbed : state.Undisturbed id loc qc index label)
    (moved : Moved state label next) :
    Staying id loc qc index address next := by
  have slot :
      next.grid.cells[id]? = some address ∧
        ∃ cell, next.grid.heap[address]? = some cell ∧
          cell.find? loc.devId = some loc := by
    rcases grid_of_moved moved with same | ⟨gridLabel, rfl, gridMoved⟩
    · rw [same]
      exact ⟨staying.mapped, staying.stored⟩
    · exact staying.slot_of_moved undisturbed gridMoved
  exact
    { wellFormed := wellFormed_of_moved staying.wellFormed moved
      mapped := slot.1
      stored := slot.2
      asked :=
        Nat.lt_of_lt_of_le staying.asked (queries_length_of_moved moved)
      found := staying.found_of_moved undisturbed moved }

/-- A record that is in a cell of the window when a query begins, and stays
there, is in the answer, whatever else is updated meanwhile, unless the answer
is full; and an answer ordered by keys is then full of records that do not come
after it. -/
theorem staying_record_is_answered {start final : QueryState}
    {labels : List QueryLabel} {cell : MapCell} {query : QueryCall}
    (wellFormed : start.grid.WellFormed)
    (inWindow : id ∈ start.grid.windowIds qc)
    (present : start.grid.cellAt? id = some cell)
    (filed : cell.find? loc.devId = some loc)
    (execution : run step start (.query qc :: labels) = some final)
    (undisturbed :
      Along step (Undisturbed id loc qc start.queries.length) start
        (.query qc :: labels))
    (answer : final.queries[start.queries.length]? = some query)
    (returned : query.pc = .returned) :
    loc ∈ query.list ∨
      (query.list.length = qc.maxnum.toNat ∧
        (qc.ComparesKeys → ∀ other ∈ query.list,
          qc.sortKey other ≤ qc.sortKey loc)) := by
  obtain ⟨asked, isAsked, continued⟩ := run_cons_eq_some_iff.mp execution
  obtain ⟨address, mapped, inHeap⟩ := Option.bind_eq_some_iff.mp present
  have staying : Staying id loc qc start.queries.length address final := by
    refine
      invariant_of_along
        (fun _ _ _ staying undisturbed stepped =>
          Staying.of_moved staying undisturbed (moved_of_step stepped))
        ?_ (undisturbed.2 asked isAsked) continued
    rw [← Option.some.inj isAsked]
    refine ⟨wellFormed, mapped, ⟨cell, inHeap, filed⟩, ?_, ?_⟩
    · simp
    · intro first isFirst
      dsimp only at isFirst
      rw [List.getElem?_concat_length] at isFirst
      rw [← Option.some.inj isFirst]
      exact ⟨rfl, Or.inl inWindow⟩
  have willFind := staying.found query answer
  rw [WillFind, returned] at willFind
  obtain ⟨-, found, isAnswer, member⟩ := willFind
  rw [isAnswer]
  exact mem_sortAndLimit_or_full member

end Staying

theorem wellFormed_gridOfOne : gridOfOne.WellFormed := by
  have onlyFirst :
      ∀ (id : MapCellId) (address : Nat),
        gridOfOne.cells[id]? = some address → 0 = id ∧ 0 = address := by
    intro id address mapped
    rw [gridOfOne, TreeMap.getElem?_insert] at mapped
    split at mapped
    · rename_i isId
      exact ⟨LawfulEqCmp.eq_of_compare isId, Option.some.inj mapped⟩
    · simp at mapped
  refine GridState.wellFormed_of_idle ⟨rfl, ?_, ?_⟩
  · intro id address mapped
    rw [← (onlyFirst id address mapped).2]
    exact Nat.zero_lt_one
  · intro left right address leftMapped rightMapped
    exact
      (onlyFirst left address leftMapped).1.symm.trans
        (onlyFirst right address rightMapped).1

/-- Another device comes to the cell while it is looked up and read. -/
def joinedMeanwhile : List QueryLabel :=
  [.query (cornerQuery unlimited), .grid (.call (sampleLocation 2001 70 10)),
    .advance 0 0, .grid (.step 0), .grid (.step 0), .advance 0 0,
    .advance 0 0, .advance 0 0]

theorem staying_record_is_answered_joined :
    ∃ (final : QueryState) (query : QueryCall),
      run step { grid := gridOfOne } joinedMeanwhile = some final ∧
        final.queries[0]? = some query ∧ query.list.length = 2 ∧
          (sampleLocation 2000 70 10 ∈ query.list ∨
            (query.list.length = (cornerQuery unlimited).maxnum.toNat ∧
              ((cornerQuery unlimited).ComparesKeys →
                ∀ other ∈ query.list,
                  (cornerQuery unlimited).sortKey other ≤
                    (cornerQuery unlimited).sortKey
                      (sampleLocation 2000 70 10)))) := by
  let loc := sampleLocation 2000 70 10
  obtain ⟨final, execution, answered⟩ :
      ∃ final,
        run step { grid := gridOfOne } joinedMeanwhile = some final ∧
          final.queries.map (fun query => (query.pc, query.list.length)) =
            [(.returned, 2)] :=
    ⟨outcome step { grid := gridOfOne } joinedMeanwhile (by decide +kernel),
      run_eq_outcome _ _ _, by decide +kernel⟩
  have inWindow : 0 ∈ gridOfOne.windowIds (cornerQuery unlimited) := by
    decide +kernel
  have present :
      gridOfOne.cellAt? 0 = some (MapCell.empty.update loc) := by
    rw [GridState.cellAt?, gridOfOne, TreeMap.getElem?_insert_self]
    rfl
  have filed : (MapCell.empty.update loc).find? loc.devId = some loc := by
    rw [MapCell.find?_update, if_pos rfl]
  have undisturbed :
      Along step (Undisturbed 0 loc (cornerQuery unlimited) 0)
        { grid := gridOfOne } joinedMeanwhile := by
    decide +kernel
  obtain ⟨query, isQuery, isPair⟩ := List.map_eq_singleton_iff.mp answered
  obtain ⟨returned, two⟩ := Prod.mk.inj isPair
  have found : final.queries[0]? = some query := by
    rw [isQuery]
    rfl
  exact
    ⟨final, query, execution, found, two,
      @staying_record_is_answered 0 loc (cornerQuery unlimited)
        { grid := gridOfOne } final joinedMeanwhile.tail _ query
        wellFormed_gridOfOne inWindow present filed execution undisturbed
        found returned⟩

end QueryState

end LocationServer

import LocationServer.Concurrency.GridCalls

/-!
# Does every update end in a reachable cell?

A call is linked when `_cells` still maps its id to the cell it chose.  A call
that inserts a cell under an id that another call has filled in the meantime
unlinks that other call for good.
-/

namespace LocationServer

open Std StepSystem

namespace GridState

/-- A grid with no call in progress. -/
structure Idle (state : GridState) : Prop where
  noCalls : state.calls = []
  addressed : state.Addressed
  distinct : state.Distinct

theorem idle_empty (props : GlobalMap.Properties) :
    Idle { props } := by
  constructor <;> simp [Addressed, Distinct]

/-- The record of a call is in the cell at an address, unless a later call for
the same device has replaced it there. -/
def Filed (state : GridState) (loc : LocationDetail)
    (address : Nat) : Prop :=
  ∃ cell, state.heap[address]? = some cell ∧
    ∃ other ∈ state.calls,
      other.pc = .returned address ∧
        other.loc.devId = loc.devId ∧
          cell.find? loc.devId = some other.loc

/-- What holds in every state, whatever the schedule. -/
structure WellFormed (state : GridState) : Prop where
  addressed : state.Addressed
  distinct : state.Distinct
  chosenAddressed :
    ∀ call ∈ state.calls, ∀ address,
      call.address? = some address → address < state.heap.length
  rivals :
    ∀ call ∈ state.calls, call.pc = .missed → ∀ address,
      state.cells[state.cellId call.loc]? = some address →
        ∃ owner ∈ state.calls,
          owner.address? = some address ∧
            state.cellId owner.loc = state.cellId call.loc
  filed :
    ∀ call ∈ state.calls, ∀ address,
      call.pc = .returned address → state.Filed call.loc address

/-- Every call that has chosen a cell chose the one `_cells` maps its id to. -/
def Linked (state : GridState) : Prop :=
  ∀ call ∈ state.calls, ∀ address,
    call.address? = some address →
      state.cells[state.cellId call.loc]? = some address

/-- A step that inserts a cell does so under an id that is still absent. -/
def KeepsCells (state : GridState) : GridLabel → Prop
  | .call _ => True
  | .step index =>
      ∀ call ∈ state.calls[index]?,
        call.pc = .missed → state.cells[state.cellId call.loc]? = none

instance (state : GridState) : DecidablePred state.KeepsCells
  | .call _ => inferInstanceAs (Decidable True)
  | .step _ => inferInstanceAs (Decidable (∀ call ∈ _, _))

theorem wellFormed_of_idle {state : GridState} (idle : state.Idle) :
    state.WellFormed where
  addressed := idle.addressed
  distinct := idle.distinct
  chosenAddressed := by simp [idle.noCalls]
  rivals := by simp [idle.noCalls]
  filed := by simp [idle.noCalls]

theorem linked_of_idle {state : GridState} (idle : state.Idle) :
    state.Linked := by
  simp [Linked, idle.noCalls]

/-! ## One step -/

section Step

variable {state next : GridState} {label : GridLabel}

/-- A pointer read after an insertion is the new one or an old one. -/
theorem getElem?_cells_insert_eq_some_iff
    {id inserted : MapCellId} {address : Nat} :
    (state.cells.insert inserted state.heap.length)[id]? = some address ↔
      (inserted = id ∧ state.heap.length = address) ∨
        (inserted ≠ id ∧ state.cells[id]? = some address) := by
  rw [TreeMap.getElem?_insert]
  by_cases sameId : inserted = id <;> simp [sameId]

theorem addressed_of_moved (wellFormed : state.WellFormed)
    (moved : Moved state label next) : next.Addressed := by
  intro id address mapped
  cases moved with
  | call loc =>
      exact wellFormed.addressed id address mapped
  | found index loc chosen present looked =>
      exact wellFormed.addressed id address mapped
  | missed index loc present looked =>
      exact wellFormed.addressed id address mapped
  | insert index loc present =>
      simp only [List.length_append, List.length_singleton]
      rcases getElem?_cells_insert_eq_some_iff.mp mapped with
        ⟨-, isNew⟩ | ⟨-, old⟩
      · omega
      · have bound := wellFormed.addressed id address old
        omega
  | store index loc chosen present =>
      simp only [List.length_modify]
      exact wellFormed.addressed id address mapped

theorem distinct_of_moved (wellFormed : state.WellFormed)
    (moved : Moved state label next) : next.Distinct := by
  intro left right address leftMapped rightMapped
  cases moved with
  | call loc =>
      exact wellFormed.distinct left right address leftMapped rightMapped
  | found index loc chosen present looked =>
      exact wellFormed.distinct left right address leftMapped rightMapped
  | missed index loc present looked =>
      exact wellFormed.distinct left right address leftMapped rightMapped
  | insert index loc present =>
      rcases getElem?_cells_insert_eq_some_iff.mp leftMapped with
        ⟨leftId, leftNew⟩ | ⟨-, leftOld⟩ <;>
      rcases getElem?_cells_insert_eq_some_iff.mp rightMapped with
        ⟨rightId, rightNew⟩ | ⟨-, rightOld⟩
      · exact leftId.symm.trans rightId
      · have bound := wellFormed.addressed right address rightOld
        omega
      · have bound := wellFormed.addressed left address leftOld
        omega
      · exact wellFormed.distinct left right address leftOld rightOld
  | store index loc chosen present =>
      exact wellFormed.distinct left right address leftMapped rightMapped

theorem chosenAddressed_of_moved (wellFormed : state.WellFormed)
    (moved : Moved state label next) :
    ∀ call ∈ next.calls, ∀ address,
      call.address? = some address → address < next.heap.length := by
  cases moved with
  | call loc =>
      apply Threads.forall_mem_concat wellFormed.chosenAddressed
      intro address chose
      cases chose
  | found index loc chosen present looked =>
      apply Threads.forall_mem_set wellFormed.chosenAddressed
      intro address chose
      cases chose
      exact wellFormed.addressed _ chosen looked
  | missed index loc present looked =>
      apply Threads.forall_mem_set wellFormed.chosenAddressed
      intro address chose
      cases chose
  | insert index loc present =>
      simp only [List.length_append, List.length_singleton]
      apply Threads.forall_mem_set
      · intro call member address chose
        have bound := wellFormed.chosenAddressed call member address chose
        omega
      · intro address chose
        cases chose
        omega
  | store index loc chosen present =>
      simp only [List.length_modify]
      apply Threads.forall_mem_set wellFormed.chosenAddressed
      intro address chose
      cases chose
      exact
        wellFormed.chosenAddressed _ (List.mem_of_getElem? present) chosen
          rfl

/-- A call that has chosen a cell keeps it. -/
theorem owner_of_moved (moved : Moved state label next)
    {address : Nat} {id : MapCellId}
    (owned :
      ∃ owner ∈ state.calls,
        owner.address? = some address ∧ state.cellId owner.loc = id) :
    ∃ owner ∈ next.calls,
      owner.address? = some address ∧ next.cellId owner.loc = id := by
  cases moved with
  | call loc =>
      obtain ⟨owner, member, owns⟩ := owned
      exact ⟨owner, List.mem_append_left _ member, owns⟩
  | found index loc chosen present looked =>
      exact Threads.exists_mem_set present (fun owns => by cases owns.1) owned
  | missed index loc present looked =>
      exact Threads.exists_mem_set present (fun owns => by cases owns.1) owned
  | insert index loc present =>
      exact Threads.exists_mem_set present (fun owns => by cases owns.1) owned
  | store index loc chosen present =>
      exact Threads.exists_mem_set present (fun owns => owns) owned

theorem rivals_of_moved (wellFormed : state.WellFormed)
    (moved : Moved state label next) :
    ∀ call ∈ next.calls, call.pc = .missed → ∀ address,
      next.cells[next.cellId call.loc]? = some address →
        ∃ owner ∈ next.calls,
          owner.address? = some address ∧
            next.cellId owner.loc = next.cellId call.loc := by
  have kept :
      ∀ call ∈ state.calls, call.pc = .missed → ∀ address,
        state.cells[state.cellId call.loc]? = some address →
          ∃ owner ∈ next.calls,
            owner.address? = some address ∧
              next.cellId owner.loc = state.cellId call.loc :=
    fun call member isMissed address mapped =>
      owner_of_moved moved
        (wellFormed.rivals call member isMissed address mapped)
  cases moved with
  | call loc =>
      exact
        Threads.forall_mem_concat kept (fun isMissed => by cases isMissed)
  | found index loc chosen present looked =>
      exact Threads.forall_mem_set kept (fun isMissed => by cases isMissed)
  | missed index loc present looked =>
      apply Threads.forall_mem_set kept
      intro _ address mapped
      exact absurd (looked.symm.trans mapped) (by simp)
  | insert index loc present =>
      refine Threads.forall_mem_set ?_ (fun isMissed => by cases isMissed)
      intro call member isMissed address mapped
      rcases getElem?_cells_insert_eq_some_iff.mp mapped with
        ⟨sameId, isNew⟩ | ⟨-, old⟩
      · refine ⟨_, Threads.mem_set_self present, ?_, sameId⟩
        rw [← isNew]
        rfl
      · exact kept call member isMissed address old
  | store index loc chosen present =>
      exact Threads.forall_mem_set kept (fun isMissed => by cases isMissed)

theorem filed_of_moved (moved : Moved state label next)
    {loc : LocationDetail} {address : Nat}
    (filed : state.Filed loc address) : next.Filed loc address := by
  obtain ⟨cell, atAddress, inCell⟩ := filed
  cases moved with
  | call newLoc =>
      obtain ⟨other, member, returned⟩ := inCell
      exact
        ⟨cell, atAddress, other, List.mem_append_left _ member, returned⟩
  | found index moving chosen present looked =>
      exact
        ⟨cell, atAddress,
          Threads.exists_mem_set present (fun holds => by cases holds.1)
            inCell⟩
  | missed index moving present looked =>
      exact
        ⟨cell, atAddress,
          Threads.exists_mem_set present (fun holds => by cases holds.1)
            inCell⟩
  | insert index moving present =>
      refine
        ⟨cell, ?_,
          Threads.exists_mem_set present (fun holds => by cases holds.1)
            inCell⟩
      obtain ⟨bound, -⟩ := List.getElem?_eq_some_iff.mp atAddress
      rw [List.getElem?_append_left bound]
      exact atAddress
  | store index moving chosen present =>
      have kept :=
        @Threads.exists_mem_set _ _ _ _ ⟨moving, .returned chosen⟩ _ present
          (fun holds => by cases holds.1) inCell
      by_cases sameCell : chosen = address
      · subst sameCell
        refine ⟨cell.update moving, ?_, ?_⟩
        · rw [List.getElem?_modify, atAddress]
          simp
        · by_cases sameDevice : moving.devId = loc.devId
          · refine ⟨_, Threads.mem_set_self present, rfl, sameDevice, ?_⟩
            rw [MapCell.find?_update, if_pos sameDevice]
          · obtain ⟨other, member, returned, device, found⟩ := kept
            refine ⟨other, member, returned, device, ?_⟩
            rw [MapCell.find?_update, if_neg sameDevice]
            exact found
      · refine ⟨cell, ?_, kept⟩
        rw [List.getElem?_modify, atAddress]
        simp [sameCell]

/-- A call that stores its record files it. -/
theorem filed_of_store (wellFormed : state.WellFormed)
    {index chosen : Nat} {loc : LocationDetail}
    (present : state.calls[index]? = some { loc, pc := .chosen chosen }) :
    Filed
      { state with
        heap := state.heap.modify chosen (·.update loc)
        calls := state.calls.set index { loc, pc := .returned chosen } }
      loc chosen := by
  have bound :=
    wellFormed.chosenAddressed _ (List.mem_of_getElem? present) chosen rfl
  refine
    ⟨state.heap[chosen].update loc, ?_, _, Threads.mem_set_self present,
      rfl, rfl, ?_⟩
  · rw [List.getElem?_modify, List.getElem?_eq_getElem bound]
    simp
  · rw [MapCell.find?_update, if_pos rfl]

theorem filedCalls_of_moved (wellFormed : state.WellFormed)
    (moved : Moved state label next) :
    ∀ call ∈ next.calls, ∀ address,
      call.pc = .returned address → next.Filed call.loc address := by
  have kept :
      ∀ call ∈ state.calls, ∀ address,
        call.pc = .returned address → next.Filed call.loc address :=
    fun call member address returned =>
      filed_of_moved moved (wellFormed.filed call member address returned)
  cases moved with
  | call loc =>
      exact
        Threads.forall_mem_concat kept (fun _ returned => by cases returned)
  | found index loc chosen present looked =>
      exact
        Threads.forall_mem_set kept (fun _ returned => by cases returned)
  | missed index loc present looked =>
      exact
        Threads.forall_mem_set kept (fun _ returned => by cases returned)
  | insert index loc present =>
      exact
        Threads.forall_mem_set kept (fun _ returned => by cases returned)
  | store index loc chosen present =>
      apply Threads.forall_mem_set kept
      intro address returned
      cases returned
      exact filed_of_store wellFormed present

theorem wellFormed_of_moved (wellFormed : state.WellFormed)
    (moved : Moved state label next) : next.WellFormed where
  addressed := addressed_of_moved wellFormed moved
  distinct := distinct_of_moved wellFormed moved
  chosenAddressed := chosenAddressed_of_moved wellFormed moved
  rivals := rivals_of_moved wellFormed moved
  filed := filedCalls_of_moved wellFormed moved

/-- A step that keeps the cells keeps every call linked. -/
theorem linked_of_moved (linked : state.Linked)
    (keeps : state.KeepsCells label) (moved : Moved state label next) :
    next.Linked := by
  cases moved with
  | call loc =>
      exact
        Threads.forall_mem_concat linked (fun _ chose => by cases chose)
  | found index loc chosen present looked =>
      apply Threads.forall_mem_set linked
      intro address chose
      cases chose
      exact looked
  | missed index loc present looked =>
      exact Threads.forall_mem_set linked (fun _ chose => by cases chose)
  | insert index loc present =>
      have absent := keeps _ present rfl
      apply Threads.forall_mem_set
      · intro call member address chose
        have mapped := linked call member address chose
        refine getElem?_cells_insert_eq_some_iff.mpr (Or.inr ⟨?_, mapped⟩)
        intro sameId
        rw [← show state.cellId loc = state.cellId call.loc from sameId,
          absent] at mapped
        cases mapped
      · intro address chose
        cases chose
        exact
          getElem?_cells_insert_eq_some_iff.mpr (Or.inl ⟨rfl, rfl⟩)
  | store index loc chosen present =>
      apply Threads.forall_mem_set linked
      intro address chose
      cases chose
      exact linked _ (List.mem_of_getElem? present) chosen rfl

/-- Some call has chosen a cell that `_cells` does not map its id to. -/
def Unlinked (state : GridState) : Prop :=
  ∃ call ∈ state.calls, ∃ address,
    call.address? = some address ∧
      state.cells[state.cellId call.loc]? ≠ some address

theorem not_linked_iff : ¬ state.Linked ↔ state.Unlinked := by
  simp only [Linked, Unlinked, not_forall, exists_prop]

/-- An unlinked call stays unlinked: cells inserted later are new. -/
theorem unlinked_of_moved (wellFormed : state.WellFormed)
    (unlinked : state.Unlinked) (moved : Moved state label next) :
    next.Unlinked := by
  cases moved with
  | call loc =>
      obtain ⟨call, member, stranded⟩ := unlinked
      exact ⟨call, List.mem_append_left _ member, stranded⟩
  | found index loc chosen present looked =>
      exact
        Threads.exists_mem_set present
          (fun ⟨_, chose, _⟩ => by cases chose) unlinked
  | missed index loc present looked =>
      exact
        Threads.exists_mem_set present
          (fun ⟨_, chose, _⟩ => by cases chose) unlinked
  | insert index loc present =>
      refine
        Threads.exists_mem_set present
          (fun ⟨_, chose, _⟩ => by cases chose) ?_
      obtain ⟨call, member, address, chose, elsewhere⟩ := unlinked
      refine ⟨call, member, address, chose, fun mapped => ?_⟩
      rcases getElem?_cells_insert_eq_some_iff.mp mapped with
        ⟨-, isNew⟩ | ⟨-, old⟩
      · have bound := wellFormed.chosenAddressed call member address chose
        omega
      · exact elsewhere old
  | store index loc chosen present =>
      exact
        Threads.exists_mem_set present (fun stranded => stranded) unlinked

/-- A step that replaces a cell unlinks the call that chose it. -/
theorem unlinked_of_replacement (wellFormed : state.WellFormed)
    (replaces : ¬ state.KeepsCells label)
    (moved : Moved state label next) : next.Unlinked := by
  cases moved with
  | call loc =>
      exact absurd trivial replaces
  | found index loc chosen present looked =>
      refine absurd ?_ replaces
      intro other otherPresent isMissed
      rw [← Option.some.inj (present.symm.trans otherPresent)] at isMissed
      cases isMissed
  | missed index loc present looked =>
      refine absurd ?_ replaces
      intro other otherPresent isMissed
      rw [← Option.some.inj (present.symm.trans otherPresent)] at isMissed
      cases isMissed
  | insert index loc present =>
      simp only [KeepsCells, not_forall] at replaces
      obtain ⟨call, otherPresent, -, occupied⟩ := replaces
      obtain rfl := Option.some.inj (present.symm.trans otherPresent)
      obtain ⟨old, mapped⟩ := Option.ne_none_iff_exists'.mp occupied
      obtain ⟨owner, member, owns, sameId⟩ :=
        wellFormed.rivals _ (List.mem_of_getElem? present) rfl old mapped
      have bound := wellFormed.addressed _ old mapped
      refine
        Threads.exists_mem_set present
          (fun ⟨_, chose, _⟩ => by cases chose) ?_
      refine ⟨owner, member, old, owns, fun stillMapped => ?_⟩
      rcases getElem?_cells_insert_eq_some_iff.mp stillMapped with
        ⟨-, isNew⟩ | ⟨different, -⟩
      · omega
      · exact different sameId.symm
  | store index loc chosen present =>
      refine absurd ?_ replaces
      intro other otherPresent isMissed
      rw [← Option.some.inj (present.symm.trans otherPresent)] at isMissed
      cases isMissed

end Step

/-! ## A call on its own -/

/-- A call that finds no cell inserts an empty one. -/
theorem cellAt?_insert {state : GridState} (addressed : state.Addressed)
    (inserted : MapCellId) (calls : List GridCall) (id : MapCellId) :
    cellAt?
        { state with
          cells := state.cells.insert inserted state.heap.length
          heap := state.heap ++ [MapCell.empty], calls } id =
      if inserted = id then some MapCell.empty else state.cellAt? id := by
  rw [cellAt?, cellAt?, TreeMap.getElem?_insert]
  by_cases sameId : inserted = id
  · simp [sameId]
  · simp only [LawfulEqCmp.compare_eq_iff_eq, sameId, if_false]
    cases mapped : state.cells[id]? with
    | none =>
        rfl
    | some address =>
        exact List.getElem?_append_left (addressed id address mapped)

/-- The last step of a call that has chosen the mapped cell. -/
theorem run_store {state : GridState} {map : GlobalMap}
    (wellFormed : state.WellFormed) {index address : Nat}
    {loc : LocationDetail}
    (present : state.calls[index]? = some { loc, pc := .chosen address })
    (mapped : state.cells[state.cellId loc]? = some address)
    (props : state.props = map.props)
    (cells :
      ∀ id, state.cellAt? id =
        if state.cellId loc = id then
          some (map.cells[id]?.getD MapCell.empty)
        else map.cells[id]?) :
    ∃ final,
      run step state [.step index] = some final ∧
        final.Represents (map.update loc) := by
  have sameId : state.cellId loc = map.makeCellId loc.gps.pt := by
    rw [cellId, props]
    rfl
  refine
    ⟨_, run_cons_eq_some_iff.mpr
      ⟨_, step_of_moved (Moved.store index loc address present), rfl⟩,
      props, fun id => ?_⟩
  rw [cellAt?_modify wellFormed.addressed wellFormed.distinct mapped,
    cells_update, cells, ← sameId]
  by_cases here : state.cellId loc = id <;> simp [here]

/-- Undisturbed, a call does to the cells what the sequential model says. -/
theorem run_call_alone {state : GridState} {map : GlobalMap}
    (wellFormed : state.WellFormed) (represents : state.Represents map)
    (loc : LocationDetail) :
    ∃ labels final,
      run step state (.call loc :: labels) = some final ∧
        final.Represents (map.update loc) := by
  let called : GridState :=
    { state with calls := state.calls ++ [{ loc }] }
  let index := state.calls.length
  have calledFormed : called.WellFormed :=
    wellFormed_of_moved wellFormed (Moved.call loc)
  have present : called.calls[index]? = some { loc, pc := .start } := by
    simp [called, index]
  have bound : index < called.calls.length := by
    simp [called, index]
  cases looked : state.cells[state.cellId loc]? with
  | some address =>
      have move := Moved.found index loc address present looked
      have inHeap : address < state.heap.length :=
        wellFormed.addressed _ address looked
      have filled :
          map.cells[state.cellId loc]? = some state.heap[address] := by
        rw [← represents.cells, cellAt?, looked]
        exact List.getElem?_eq_getElem _
      have cells :
          ∀ id, state.cellAt? id =
            if state.cellId loc = id then
              some (map.cells[id]?.getD MapCell.empty)
            else map.cells[id]? := by
        intro id
        rw [represents.cells]
        by_cases here : state.cellId loc = id
        · rw [if_pos here, ← here, filled]
          rfl
        · rw [if_neg here]
      obtain ⟨final, stores, represented⟩ :=
        run_store (wellFormed_of_moved calledFormed move)
          (List.getElem?_set_self bound) looked represents.props cells
      refine ⟨[.step index, .step index], final, ?_, represented⟩
      exact
        run_cons_eq_some_iff.mpr
          ⟨called, rfl, run_cons_eq_some_iff.mpr
            ⟨_, step_of_moved move, stores⟩⟩
  | none =>
      have miss := Moved.missed index loc present looked
      have missedFormed := wellFormed_of_moved calledFormed miss
      let missed : GridState :=
        { called with
          calls := called.calls.set index { loc, pc := .missed } }
      have missedBound : index < missed.calls.length := by
        simpa [missed] using bound
      have insert : Moved missed (.step index) _ :=
        Moved.insert index loc (List.getElem?_set_self bound)
      have empty : map.cells[state.cellId loc]? = none := by
        rw [← represents.cells, cellAt?, looked]
        rfl
      have cells :
          ∀ id,
            cellAt?
                { missed with
                  cells :=
                    missed.cells.insert (missed.cellId loc)
                      missed.heap.length
                  heap := missed.heap ++ [MapCell.empty]
                  calls :=
                    missed.calls.set index
                      { loc, pc := .chosen missed.heap.length } } id =
              if state.cellId loc = id then
                some (map.cells[id]?.getD MapCell.empty)
              else map.cells[id]? := by
        intro id
        have sameCell : missed.cellId loc = state.cellId loc := rfl
        rw [cellAt?_insert missedFormed.addressed, sameCell]
        by_cases here : state.cellId loc = id
        · rw [if_pos here, if_pos here, ← here, empty]
          rfl
        · rw [if_neg here, if_neg here]
          exact represents.cells id
      obtain ⟨final, stores, represented⟩ :=
        run_store (wellFormed_of_moved missedFormed insert)
          (List.getElem?_set_self missedBound)
          (getElem?_cells_insert_eq_some_iff.mpr (Or.inl ⟨rfl, rfl⟩))
          represents.props cells
      refine
        ⟨[.step index, .step index, .step index], final, ?_, represented⟩
      exact
        run_cons_eq_some_iff.mpr
          ⟨called, rfl, run_cons_eq_some_iff.mpr
            ⟨missed, step_of_moved miss, run_cons_eq_some_iff.mpr
              ⟨_, step_of_moved insert, stores⟩⟩⟩

/-! ## Runs -/

/-- The calls of a run stay linked exactly when no step of the run replaces a
cell. -/
theorem linked_iff_keepsCells
    {start final : GridState} {labels : List GridLabel}
    (wellFormed : start.WellFormed) (linked : start.Linked)
    (execution : run step start labels = some final) :
    final.Linked ↔ Along step KeepsCells start labels := by
  have staysUnlinked :
      ∀ {middle : GridState} {rest : List GridLabel},
        middle.WellFormed → middle.Unlinked →
          run step middle rest = some final → final.Unlinked := by
    intro middle rest middleFormed middleUnlinked continued
    exact
      (@invariant_of_run GridState GridLabel step
        (fun state => state.WellFormed ∧ state.Unlinked)
        (fun state label next holds stepped =>
          have moved := moved_of_step stepped
          ⟨wellFormed_of_moved holds.1 moved,
            unlinked_of_moved holds.1 holds.2 moved⟩)
        middle final rest ⟨middleFormed, middleUnlinked⟩ continued).2
  induction labels generalizing start with
  | nil =>
      cases execution
      exact ⟨fun _ => trivial, fun _ => linked⟩
  | cons label rest inductionHypothesis =>
      obtain ⟨next, stepped, continued⟩ :=
        run_cons_eq_some_iff.mp execution
      have moved := moved_of_step stepped
      have nextFormed := wellFormed_of_moved wellFormed moved
      rw [along_cons_iff]
      by_cases keeps : start.KeepsCells label
      · have nextLinked := linked_of_moved linked keeps moved
        have onwards :
            final.Linked ↔ Along step KeepsCells next rest :=
          inductionHypothesis nextFormed nextLinked continued
        constructor
        · intro finalLinked
          refine ⟨keeps, fun other otherStepped => ?_⟩
          rw [← Option.some.inj (stepped.symm.trans otherStepped)]
          exact onwards.mp finalLinked
        · intro conditions
          exact onwards.mpr (conditions.2 next stepped)
      · have lost :=
          staysUnlinked nextFormed
            (unlinked_of_replacement wellFormed keeps moved) continued
        constructor
        · intro finalLinked
          exact absurd finalLinked (not_linked_iff.mpr lost)
        · intro conditions
          exact absurd conditions.1 keeps

/-- Every call has returned, and the cell that `_cells` maps its id to holds
the record of its device: its own, or that of another call for the same device
and cell. -/
def Settled (state : GridState) : Prop :=
  ∀ call ∈ state.calls, ∃ address cell,
    call.pc = .returned address ∧
      state.cells[state.cellId call.loc]? = some address ∧
      state.heap[address]? = some cell ∧
      ∃ other ∈ state.calls,
        other.loc.devId = call.loc.devId ∧
          state.cellId other.loc = state.cellId call.loc ∧
          cell.find? call.loc.devId = some other.loc

/-- All calls have returned. -/
def Complete (state : GridState) : Prop :=
  ∀ call ∈ state.calls, call.hasReturned = true

instance (state : GridState) : Decidable state.Complete :=
  inferInstanceAs (Decidable (∀ call ∈ _, _))

theorem settled_iff_linked {state : GridState}
    (wellFormed : state.WellFormed) (complete : state.Complete) :
    state.Settled ↔ state.Linked := by
  constructor
  · intro settled call member address chose
    obtain ⟨chosen, -, returned, mapped, -⟩ := settled call member
    have same : chosen = address := by
      simpa [GridCall.address?, returned] using chose
    rw [← same]
    exact mapped
  · intro linked call member
    obtain ⟨address, returned⟩ :=
      GridCall.hasReturned_iff.mp (complete call member)
    obtain ⟨cell, atAddress, other, otherMember, otherReturned, device,
      found⟩ := wellFormed.filed call member address returned
    have mapped :=
      linked call member address (by simp [GridCall.address?, returned])
    have otherMapped :=
      linked other otherMember address
        (by simp [GridCall.address?, otherReturned])
    exact
      ⟨address, cell, returned, mapped, atAddress, other, otherMember,
        device, wellFormed.distinct _ _ address otherMapped mapped, found⟩

/-- When all calls of a run have returned, every update is in a cell that
`_cells` maps its id to exactly when each insertion of the run found its id
still absent. -/
theorem settled_iff_keepsCells
    {start final : GridState} {labels : List GridLabel}
    (idle : start.Idle)
    (execution : run step start labels = some final)
    (complete : final.Complete) :
    final.Settled ↔ Along step KeepsCells start labels := by
  have finalFormed : final.WellFormed :=
    invariant_of_run
      (fun state label next wellFormed stepped =>
        wellFormed_of_moved wellFormed (moved_of_step stepped))
      (wellFormed_of_idle idle) execution
  rw [settled_iff_linked finalFormed complete]
  exact
    linked_iff_keepsCells (wellFormed_of_idle idle) (linked_of_idle idle)
      execution

/-- Two calls for one cell, one after the other. -/
theorem settled_one_after_the_other :
    (outcome step {}
      [.call (sampleLocation 2000 70 10), .step 0, .step 0, .step 0,
        .call (sampleLocation 2001 70 10), .step 1, .step 1]
      (by decide +kernel)).Settled := by
  apply (settled_iff_keepsCells (idle_empty {}) (run_eq_outcome _ _ _) _).mpr
  · decide +kernel
  · decide +kernel

/-- Two calls that both find no cell: the one that inserts first ends in a
cell that the other has replaced. -/
theorem replaced_cell_loses_update :
    ∃ (labels : List GridLabel) (final : GridState),
      run step {} labels = some final ∧
        final.Complete ∧ ¬ final.Settled := by
  refine
    ⟨[.call (sampleLocation 2000 70 10), .call (sampleLocation 2001 70 10),
        .step 0, .step 1, .step 0, .step 1, .step 0, .step 1],
      outcome step {} _ (by decide +kernel), run_eq_outcome _ _ _, ?_, ?_⟩
  · decide +kernel
  · intro settled
    obtain ⟨address, cell, returned, mapped, -⟩ :=
      settled { loc := sampleLocation 2000 70 10, pc := .returned 0 }
        (by decide +kernel)
    cases returned
    revert mapped
    decide +kernel

end GridState

end LocationServer

import LocationServer.Server.Startup

/-!
# The grid that indexes the snapshot

The start loads the snapshot before it installs the configured grid, so the
loaded records stay filed under the built-in grid.  A later write to the same
slot is the only thing that removes such a record.

Nothing here depends on what the numbers are or how they divide: the results
hold for every arithmetic of coordinates, rounded ones, cell sizes of zero and
quotients that are infinite or no numbers among them.
-/

namespace LocationServer

section Runs

variable {K : Type} [∀ n, OfNat K n] [Mul K] [Div K] [AxisNumber K]

/-- A loaded record that no later write has replaced has the same cell in the
built-in grid and in the grid in force. -/
def SnapshotSettled (loaded : List (LocationDetail K))
    (props : GlobalMap.Properties K) (locs : List (LocationDetail K)) : Prop :=
  ∀ older loc younger,
    loaded = older ++ loc :: younger →
    (∀ later ∈ younger,
      (({} : GlobalMap.Properties K).placement later).1 ≠
        (({} : GlobalMap.Properties K).placement loc).1) →
    (∀ later ∈ locs,
      (props.placement later).1 ≠
        (({} : GlobalMap.Properties K).placement loc).1) →
    props.makeCellId loc.gps.pt =
      ({} : GlobalMap.Properties K).makeCellId loc.gps.pt

/-- What the journal of a run says about one slot: an update fills it last, or
a loaded record that nothing replaced. -/
theorem last_placements_eq_some_iff
    {loaded locs : List (LocationDetail K)} {props : GlobalMap.Properties K}
    {slot : MapCellId × DeviceId} {stored : LocationDetail K} :
    Journal.last slot (placements loaded props locs) = some stored ↔
      Journal.last slot (locs.map props.placement) = some stored ∨
        (∀ later ∈ locs, (props.placement later).1 ≠ slot) ∧
          ∃ older younger,
            loaded = older ++ stored :: younger ∧
              (({} : GlobalMap.Properties K).placement stored).1 = slot ∧
              ∀ later ∈ younger,
                (({} : GlobalMap.Properties K).placement later).1 ≠ slot := by
  have untouched :
      Journal.last slot (locs.map props.placement) = none ↔
        ∀ later ∈ locs, (props.placement later).1 ≠ slot := by
    rw [Journal.last_eq_none_iff]
    simp only [List.forall_mem_map]
  have fromSnapshot :
      Journal.last slot
            (loaded.map ({} : GlobalMap.Properties K).placement) =
          some stored ↔
        ∃ older younger,
          loaded = older ++ stored :: younger ∧
            (({} : GlobalMap.Properties K).placement stored).1 = slot ∧
            ∀ later ∈ younger,
              (({} : GlobalMap.Properties K).placement later).1 ≠ slot := by
    rw [Journal.last_eq_some_iff]
    constructor
    · intro answers
      obtain ⟨olderEntries, youngerEntries, split, fresh⟩ := answers
      obtain ⟨older, rest, rfl, rfl, tail⟩ :=
        List.map_eq_append_iff.mp split
      obtain ⟨loc, younger, rfl, entry, rfl⟩ :=
        List.map_eq_cons_iff.mp tail
      have sameLoc : loc = stored := congrArg Prod.snd entry
      subst sameLoc
      exact
        ⟨older, younger, rfl, congrArg Prod.fst entry,
          fun later member => fresh _ (List.mem_map_of_mem member)⟩
    · intro loadedLast
      obtain ⟨older, younger, rfl, sameSlot, fresh⟩ := loadedLast
      refine
        ⟨older.map ({} : GlobalMap.Properties K).placement,
          younger.map ({} : GlobalMap.Properties K).placement, ?_, ?_⟩
      · rw [List.map_append, List.map_cons, ← sameSlot]
        rfl
      · simpa only [List.forall_mem_map] using fresh
  rw [placements, Journal.last_append, ← fromSnapshot, ← untouched]
  cases Journal.last slot (locs.map props.placement) <;> simp

/-- The grid of a run is indexed by the grid in force exactly when every
loaded record that is still in place has the same cell in both grids. -/
theorem wellIndexed_updateAll_iff [IntCast K]
    {cast : LexicalCast K} {conf : PlainConfig} {db : Mongo K}
    {surroundings : Surroundings} {server : LocServer K}
    (started : LocServer.init cast conf db surroundings = some server)
    (locs : List (LocationDetail K)) :
    (server.updateAll locs).map.WellIndexed ↔
      SnapshotSettled (loadedRecords surroundings.cursorFault db.table1)
        server.map.props locs := by
  simp only [GlobalMap.WellIndexed, GlobalMap.makeCellId,
    LocServer.props_updateAll, recordAt_updateAll started,
    last_placements_eq_some_iff]
  constructor
  · intro indexed older loc younger split freshYounger freshLocs
    exact
      indexed _ _ loc <|
        Or.inr ⟨freshLocs, older, younger, split, rfl, freshYounger⟩
  · intro settled id devId loc stored
    rcases stored with
      byUpdate | ⟨freshLocs, older, younger, split, sameSlot, fresh⟩
    · obtain ⟨placed, -, entry⟩ :=
        List.mem_map.mp (Journal.mem_of_last_eq_some byUpdate)
      have sameLoc : placed = loc := congrArg Prod.snd entry
      subst sameLoc
      exact congrArg (fun entry => entry.1.1) entry
    · have notReloaded :
          ∀ later ∈ younger,
            (({} : GlobalMap.Properties K).placement later).1 ≠
              (({} : GlobalMap.Properties K).placement loc).1 := by
        intro later member
        rw [sameSlot]
        exact fresh later member
      have notUpdated :
          ∀ later ∈ locs,
            (server.map.props.placement later).1 ≠
              (({} : GlobalMap.Properties K).placement loc).1 := by
        intro later member
        rw [sameSlot]
        exact freshLocs later member
      exact
        (settled older loc younger split notReloaded notUpdated).trans
          (congrArg Prod.fst sameSlot)

end Runs

/-- With an empty snapshot the grid stays indexed, whatever is reported. -/
theorem wellIndexed_of_empty_snapshot :
    (defaultServer.updateAll
      [sampleLocation 2000 (1164 / 10) (399 / 10)]).map.WellIndexed := by
  refine (wellIndexed_updateAll_iff defaultServer_started _).mpr ?_
  intro older loc younger split
  cases older <;> cases split

/-- A record at the built-in origin, as a snapshot gives it back. -/
def sampleStored : LocationDetail := sampleLocation 2000 70 10

/-- A database whose snapshot holds that record. -/
def sampleDatabase : Mongo := { table1 := [encodeLocation sampleStored] }

/-- The configured default `10,70` for `map.origin` differs from the built-in
origin, so a start on an empty configuration leaves a snapshot record in a
cell that the grid in force does not assign to it. -/
theorem snapshot_indexed_by_other_grid :
    ∃ (cast : LexicalCast) (conf : PlainConfig) (db : Mongo)
        (surroundings : Surroundings) (server : LocServer)
        (locs : List LocationDetail),
      LocServer.init cast conf db surroundings = some server ∧
        ¬ (server.updateAll locs).map.WellIndexed := by
  refine
    ⟨decimalCast, {}, sampleDatabase, {}, _, [],
      (Option.some_get
        (by decide +kernel :
          (LocServer.init decimalCast {} sampleDatabase {}).isSome)).symm,
      fun indexed => ?_⟩
  have stored := indexed 0 2000 sampleStored
  revert stored
  decide +kernel

end LocationServer

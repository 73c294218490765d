import LocationServer.Sync.Runs

/-!
# Where the records of the synchroniser are

Every record passed to `update` is written to the history, pending, or given
up.  A failing operation gives up the record it works on together with the rest
of the batch: `sync2db` returns `-1`, and `sync` neither looks at the result nor
puts the batch back.
-/

namespace LocationServer

open StepSystem

/-- The records passed in are, with multiplicity, those written to the history
since the start and those still pending. -/
def Conserved (start : SyncState) (labels : List SyncLabel)
    (final : SyncState) : Prop :=
  ∃ written : List LocationDetail,
    final.db.table2 = start.db.table2 ++ written.map encodeLocation ∧
      (passed labels).Perm (written ++ final.pending)

/-- The books of a run, with the records given up. -/
structure Accounted (start : SyncState) (labels : List SyncLabel)
    (final : SyncState) (written lost : List LocationDetail) : Prop where
  history :
    final.db.table2 = start.db.table2 ++ written.map encodeLocation
  balance : (passed labels).Perm (written ++ final.pending ++ lost)
  lossless : lost = [] ↔ ∀ label ∈ labels, label.raises = false

theorem lossless_concat
    {labels : List SyncLabel} {label : SyncLabel}
    {lost : List LocationDetail}
    (lossless : lost = [] ↔ ∀ label ∈ labels, label.raises = false)
    (quiet : label.raises = false) :
    lost = [] ↔ ∀ other ∈ labels ++ [label], other.raises = false := by
  simp [lossless, or_imp, forall_and, quiet]

/-- One step keeps the books. -/
theorem accounted_step
    {start state next : SyncState} {labels : List SyncLabel}
    {label : SyncLabel} {written lost : List LocationDetail}
    (books : Accounted start labels state written lost)
    (stepped : state.step label = some next) :
    ∃ written lost,
      Accounted start (labels ++ [label]) next written lost := by
  obtain ⟨history, balance, lossless⟩ := books
  rcases SyncState.step_cases stepped with
    ⟨loc, rfl, rfl⟩ | ⟨force, rfl, idle, rfl⟩ |
    ⟨faults, loc, rest, rfl, busy, quiet, rfl⟩ |
    ⟨faults, loc, rest, db, rfl, busy, raises, tables, rfl⟩ |
    ⟨rfl, busy, rfl⟩
  · -- the new record joins the queue, behind the pending ones
    refine ⟨written, lost, history, ?_, lossless_concat lossless rfl⟩
    rw [passed_concat]
    refine List.perm_iff_count.mpr fun item => ?_
    have before := balance.count_eq item
    simp only [SyncState.pending, DBSyncer.update, SyncLabel.passed?,
      Option.toList_some, List.count_append] at before ⊢
    omega
  · refine ⟨written, lost, history, ?_, lossless_concat lossless rfl⟩
    rw [passed_concat]
    have moved := takeBatch_append state.syncer force
    simpa [SyncLabel.passed?, SyncState.pending, idle, moved] using balance
  · refine
      ⟨written ++ [loc], lost, ?_, ?_, lossless_concat lossless quiet⟩
    · simp [Mongo.insert2, history]
    · rw [passed_concat]
      simpa [SyncLabel.passed?, SyncState.pending, busy] using balance
  · -- the failing record and the rest of its batch are given up
    refine ⟨written, lost ++ loc :: rest, ?_, ?_, ?_⟩
    · rcases tables with rfl | rfl
      · exact history
      · rw [Mongo.table2_storeSnapshot, history]
    · rw [passed_concat]
      refine List.perm_iff_count.mpr fun item => ?_
      have before := balance.count_eq item
      simp only [SyncState.pending, busy, SyncLabel.passed?,
        Option.toList_none, Option.getD_some, Option.getD_none,
        List.count_append, List.count_nil] at before ⊢
      omega
    · simp [SyncLabel.raises, raises]
  · refine ⟨written, lost, history, ?_, lossless_concat lossless rfl⟩
    rw [passed_concat]
    simpa [SyncLabel.passed?, SyncState.pending, busy] using balance

/-- A run that starts with nothing pending keeps the books. -/
theorem accounted_run
    {start final : SyncState} {labels : List SyncLabel}
    (nothingPending : start.pending = [])
    (execution : run SyncState.step start labels = some final) :
    ∃ written lost, Accounted start labels final written lost := by
  refine
    @history_invariant SyncState SyncLabel SyncState.step
      (fun labels state =>
        ∃ written lost, Accounted start labels state written lost)
      ?_ start final labels ?_ execution
  · intro labels state label next accounted stepped
    obtain ⟨written, lost, books⟩ := accounted
    exact accounted_step books stepped
  · exact ⟨[], [], by simp, by simp [nothingPending, passed], by simp⟩

/-- The synchroniser conserves the records of a run exactly when no database
operation of the run raises. -/
theorem conserved_iff_quiet
    {start final : SyncState} {labels : List SyncLabel}
    (nothingPending : start.pending = [])
    (execution : run SyncState.step start labels = some final) :
    Conserved start labels final ↔
      ∀ label ∈ labels, label.raises = false := by
  obtain ⟨written, lost, history, balance, lossless⟩ :=
    accounted_run nothingPending execution
  rw [← lossless]
  constructor
  · intro conserved
    obtain ⟨others, otherHistory, otherBalance⟩ := conserved
    -- both accounts log the same number of records
    have sameCount : written.length = others.length := by
      have counts := congrArg List.length (history.symm.trans otherHistory)
      simpa using counts
    have lengths := balance.length_eq.symm.trans otherBalance.length_eq
    simp only [List.length_append] at lengths
    exact List.length_eq_zero_iff.mp (by omega)
  · intro nothingLost
    rw [nothingLost, List.append_nil] at balance
    exact ⟨written, history, balance⟩

/-- Two records, flushed by one `check` that no fault disturbs. -/
theorem conserved_undisturbed :
    Conserved {}
      [.update (sampleLocation 2000 10 70), .swap true,
        .update (sampleLocation 2001 10 70), .record {}, .finish]
      { syncer :=
          { locs := [sampleLocation 2001 10 70], syncSuccNum := 1 }
        db :=
          { table1 := [encodeLocation (sampleLocation 2000 10 70)]
            table2 := [encodeLocation (sampleLocation 2000 10 70)] } } :=
  (conserved_iff_quiet rfl (by decide +kernel)).mpr (by decide)

/-- A failed look-up drops the record: it is in no table and no longer
pending. -/
theorem failed_lookup_drops_record :
    ∃ (labels : List SyncLabel) (final : SyncState),
      run SyncState.step {} labels = some final ∧
        ¬ Conserved {} labels final := by
  refine
    ⟨[.update (sampleLocation 2000 10 70), .swap true,
        .record { find := true }],
      { syncer := { syncErrorNum := 1 } }, by decide +kernel, ?_⟩
  intro conserved
  obtain ⟨written, history, balance⟩ := conserved
  have nothingWritten : written = [] := by simpa using history
  subst nothingWritten
  exact absurd balance.length_eq (by decide)

end LocationServer

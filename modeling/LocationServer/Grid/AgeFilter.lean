import LocationServer.Grid.Pruning

/-!
# The age filter of a cell

The age of a record is computed in unsigned 64-bit arithmetic.  For a record
whose time is not ahead of the clock the difference is the age; for one whose
time is ahead it wraps around to a number far above any limit, and the newest
record is the one that is dropped.
-/

namespace LocationServer

/-! ## Ages -/

/-- The age of a record in seconds, negative when its time is ahead of the
clock. -/
def LocationDetail.age (now : Int64) (loc : LocationDetail) : ℤ :=
  now.toInt - loc.gps.time.toNat

/-- The unsigned difference is at most a 32-bit limit exactly when the integer
difference is and did not wrap around. -/
theorem wrapped_age_le_iff (now : Int64) (time elapsed : UInt32) :
    now.toUInt64 - time.toUInt64 ≤ elapsed.toUInt64 ↔
      (time.toNat : ℤ) ≤ now.toInt ∧
        now.toInt - time.toNat ≤ elapsed.toNat := by
  have signed :
      now.toInt =
        if 2 * now.toUInt64.toNat < 2 ^ 64 then (now.toUInt64.toNat : ℤ)
        else now.toUInt64.toNat - 2 ^ 64 :=
    BitVec.toInt_eq_toNat_cond _
  have nowBound := now.toUInt64.toNat_lt
  have timeBound := time.toNat_lt
  have elapsedBound := elapsed.toNat_lt
  rw [UInt64.le_iff_toNat_le, UInt64.toNat_sub, UInt32.toNat_toUInt64,
    UInt32.toNat_toUInt64, signed]
  split <;> omega

namespace QueryCase

/-- The record passes the tests before the age test: it lies in the shape and
belongs to the group, if one is asked for. -/
def Matches (qc : QueryCase) (loc : LocationDetail) : Prop :=
  qc.InShape loc.gps.pt ∧
    (qc.groupId ≠ "" → loc.groupIn qc.groupId = true)

/-- The record is at most `elapsed` seconds old, if the age is limited. -/
def RecentEnough (now : Int64) (qc : QueryCase)
    (loc : LocationDetail) : Prop :=
  qc.elapsed ≠ unlimited → loc.age now ≤ qc.elapsed.toNat

/-- What the three tests accept, in terms of the age. -/
theorem accepts_iff_age (now : Int64) (qc : QueryCase)
    (loc : LocationDetail) :
    MapCell.Accepts now qc loc ↔
      qc.Matches loc ∧ qc.RecentEnough now loc ∧
        (qc.elapsed ≠ unlimited → (loc.gps.time.toNat : ℤ) ≤ now.toInt) := by
  rw [accepts_iff, PassesFilters, wrapped_age_le_iff, Matches, RecentEnough,
    LocationDetail.age, and_assoc]
  constructor
  · rintro ⟨inShape, inGroup, recent⟩
    exact ⟨inShape, inGroup, fun limited => (recent limited).2,
      fun limited => (recent limited).1⟩
  · rintro ⟨inShape, inGroup, recent, past⟩
    exact ⟨inShape, inGroup, fun limited => ⟨past limited, recent limited⟩⟩

end QueryCase

/-! ## What a cell reports -/

namespace MapCell

/-- A list consists of the records of a cell that a query asks for. -/
structure Reports (cell : MapCell) (now : Int64) (qc : QueryCase)
    (added : List LocationDetail) : Prop where
  /-- In device order, so each record is listed once. -/
  sorted : (added.map LocationDetail.devId).Pairwise (· < ·)
  exact :
    ∀ loc, loc ∈ added ↔
      cell.find? loc.devId = some loc ∧ qc.Matches loc ∧
        qc.RecentEnough now loc
  /-- The age test drops no record that is newer than one it passes. -/
  newer :
    ∀ older recent, older ∈ added →
      cell.find? recent.devId = some recent → qc.Matches recent →
      older.gps.time ≤ recent.gps.time → recent ∈ added

/-- The integer ages of two records are ordered against their times. -/
theorem recentEnough_of_newer {now : Int64} {qc : QueryCase}
    {older recent : LocationDetail} (passes : qc.RecentEnough now older)
    (newer : older.gps.time ≤ recent.gps.time) :
    qc.RecentEnough now recent := by
  intro limited
  have young := passes limited
  have later := UInt32.le_iff_toNat_le.mp newer
  rw [LocationDetail.age] at young ⊢
  omega

/-- The records of a cell that match have times that are not ahead of the
clock, if the age is limited at all. -/
def NoneAhead (cell : MapCell) (now : Int64) (qc : QueryCase) : Prop :=
  qc.elapsed = unlimited ∨
    ∀ loc, cell.find? loc.devId = some loc → qc.Matches loc →
      (loc.gps.time.toNat : ℤ) ≤ now.toInt

theorem reports_selected {cell : MapCell} {now : Int64} {qc : QueryCase}
    (noneAhead : cell.NoneAhead now qc) :
    cell.Reports now qc (cell.selected now qc) := by
  have exact :
      ∀ loc, loc ∈ cell.selected now qc ↔
        cell.find? loc.devId = some loc ∧ qc.Matches loc ∧
          qc.RecentEnough now loc := by
    intro loc
    rw [mem_selected_iff, QueryCase.accepts_iff_age]
    constructor
    · rintro ⟨filed, isMatch, recent, -⟩
      exact ⟨filed, isMatch, recent⟩
    · rintro ⟨filed, isMatch, recent⟩
      refine ⟨filed, isMatch, recent, ?_⟩
      intro limited
      rcases noneAhead with free | past
      · exact absurd free limited
      · exact past loc filed isMatch
  refine ⟨selected_devIds_sorted cell now qc, exact, ?_⟩
  intro older recent listed filed isMatch newer
  obtain ⟨-, -, passes⟩ := (exact older).mp listed
  exact (exact recent).mpr
    ⟨filed, isMatch, recentEnough_of_newer passes newer⟩

/-- A matching record ahead of the clock has a negative age and is dropped. -/
theorem noneAhead_of_reports {cell : MapCell} {now : Int64}
    {qc : QueryCase} (reports : cell.Reports now qc (cell.selected now qc)) :
    cell.NoneAhead now qc := by
  by_cases limited : qc.elapsed = unlimited
  · exact Or.inl limited
  · refine Or.inr ?_
    intro loc filed isMatch
    by_contra ahead
    have recent : qc.RecentEnough now loc := by
      intro _
      rw [LocationDetail.age]
      omega
    have listed := (reports.exact loc).mpr ⟨filed, isMatch, recent⟩
    rw [mem_selected_iff, QueryCase.accepts_iff_age] at listed
    exact ahead (listed.2.2.2 limited)

/-- A cell appends exactly the records that the query asks for, with integer
ages, when the age is not limited or no matching record is ahead of the clock,
and only then. -/
theorem doQuery_reports_iff (cell : MapCell) (now : Int64)
    (qc : QueryCase) :
    (∀ list, ∃ added,
        cell.doQuery now qc list = list ++ added ∧
          cell.Reports now qc added) ↔
      (qc.elapsed = unlimited ∨
        ∀ loc, cell.find? loc.devId = some loc → qc.Matches loc →
          (loc.gps.time.toNat : ℤ) ≤ now.toInt) := by
  constructor
  · intro reports
    obtain ⟨added, appended, asked⟩ := reports []
    rw [doQuery_eq, List.nil_append, List.nil_append] at appended
    rw [← appended] at asked
    exact noneAhead_of_reports asked
  · intro noneAhead list
    exact ⟨cell.selected now qc, doQuery_eq cell now qc list,
      reports_selected noneAhead⟩

/-- Of two devices at the center of the circle, the one whose clock is a second
ahead is dropped and the older one is reported. -/
theorem doQuery_drops_the_newest :
    let ahead : LocationDetail :=
      { sampleLocation 2001 10 70 with
        gps :=
          { pt := { lon := 10, lat := 70 }, time := 1349674864
            speed := 45, direction := 245 } }
    let cell := (empty.update (sampleLocation 2000 10 70)).update ahead
    let qc : QueryCase :=
      { circle := { center := { lon := 10, lat := 70 }, radius := 1 }
        sqt := .byDistance
        qot := .byTime
        elapsed := 300
        groupId := ""
        maxnum := 10 }
    cell.doQuery 1349674863 qc [] = [sampleLocation 2000 10 70] ∧
      ¬∀ list, ∃ added,
        cell.doQuery 1349674863 qc list = list ++ added ∧
          cell.Reports 1349674863 qc added := by
  intro ahead cell qc
  have answer :
      cell.doQuery 1349674863 qc [] = [sampleLocation 2000 10 70] := by
    decide +kernel
  refine ⟨answer, ?_⟩
  intro reports
  obtain ⟨added, appended, asked⟩ := reports []
  rw [answer, List.nil_append] at appended
  subst appended
  have inShape : qc.InShape ahead.gps.pt :=
    ⟨by decide +kernel, by decide +kernel⟩
  have isMatch : qc.Matches ahead := ⟨inShape, by decide⟩
  have listed :=
    asked.newer (sampleLocation 2000 10 70) ahead List.mem_cons_self
      (by decide +kernel) isMatch (by decide)
  revert listed
  decide +kernel

end MapCell

end LocationServer

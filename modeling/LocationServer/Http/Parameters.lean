import LocationServer.Http

/-!
# What a malformed geometry parameter leaves behind

The `fromText` parsers store each item as soon as it is converted.  A text with
the wrong number of items stores nothing; otherwise the items before the first
malformed one stay stored, so the last field is never changed by a failure.
-/

namespace LocationServer

/-! ## Stored prefixes -/

section Stores

variable {Target : Type} {cast : LexicalCast}
variable {stores : List (Target → ℚ → Target)}

/-- Store numbers in the order of the fields. -/
def storeNumbers (stores : List (Target → ℚ → Target))
    (numbers : List ℚ) (target : Target) : Target :=
  (stores.zip numbers).foldl (fun target entry => entry.1 target entry.2)
    target

/-- What a failed parse leaves: the target as it was when the number of items
is wrong, and otherwise the target with the items stored that stand before the
first malformed one. -/
def LeftBehind (cast : LexicalCast)
    (stores : List (Target → ℚ → Target)) (text : String)
    (target result : Target) : Prop :=
  let values := split ',' (trim text)
  (values.length ≠ stores.length ∧ result = target) ∨
    values.length = stores.length ∧
      ∃ (read : List String) (malformed : String) (unread : List String)
          (numbers : List ℚ),
        values = read ++ malformed :: unread ∧
          read.map cast.float = numbers.map some ∧
          cast.float malformed = none ∧
          result = storeNumbers stores numbers target

theorem storeValues_false {values : List String} {target : Target}
    (sameLength : values.length = stores.length)
    (failed : (storeValues cast stores values target).1 = false) :
    ∃ (read : List String) (malformed : String) (unread : List String)
        (numbers : List ℚ),
      values = read ++ malformed :: unread ∧
        read.map cast.float = numbers.map some ∧
        cast.float malformed = none ∧
        (storeValues cast stores values target).2 =
          storeNumbers stores numbers target := by
  induction stores generalizing values target with
  | nil =>
      obtain rfl := List.length_eq_zero_iff.mp sameLength
      cases failed
  | cons store stores inductionHypothesis =>
      cases values with
      | nil => cases sameLength
      | cons value values =>
          rw [storeValues] at failed ⊢
          cases converted : cast.float value with
          | none =>
              exact ⟨[], value, values, [], rfl, rfl, converted, rfl⟩
          | some number =>
              simp only [converted] at failed ⊢
              obtain ⟨read, malformed, unread, numbers, items, good, bad,
                stored⟩ :=
                inductionHypothesis (Nat.succ.inj sameLength) failed
              refine ⟨value :: read, malformed, unread, number :: numbers,
                ?_, ?_, bad, stored⟩
              · rw [items, List.cons_append]
              · rw [List.map_cons, List.map_cons, good, converted]

/-- A failed parse, whatever the fields. -/
theorem leftBehind_of_failed {text : String} {target : Target}
    (failed : (fromText cast stores text target).1 = false) :
    LeftBehind cast stores text target
      (fromText cast stores text target).2 := by
  unfold fromText at failed ⊢
  dsimp only at failed ⊢
  by_cases sameLength : (split ',' (trim text)).length = stores.length
  · rw [if_neg (not_not.mpr sameLength)] at failed ⊢
    exact Or.inr ⟨sameLength, storeValues_false sameLength failed⟩
  · rw [if_pos sameLength]
    exact Or.inl ⟨sameLength, rfl⟩

/-- Fewer numbers than fields are stored. -/
theorem exists_numbers_of_leftBehind {text : String}
    {target result : Target}
    (left : LeftBehind cast stores text target result) :
    result = target ∨
      ∃ numbers : List ℚ, numbers.length < stores.length ∧
        result = storeNumbers stores numbers target := by
  rcases left with ⟨-, same⟩ |
    ⟨sameLength, read, malformed, unread, numbers, items, good, -, stored⟩
  · exact Or.inl same
  · refine Or.inr ⟨numbers, ?_, stored⟩
    have asMany : read.length = numbers.length := by
      simpa using congrArg List.length good
    have counted := congrArg List.length items
    rw [List.length_append, List.length_cons, sameLength] at counted
    omega

end Stores

/-! ## The four parsers -/

/-- The fields of a point in the order of its text. -/
def GeoPoint.stores : List (GeoPoint → ℚ → GeoPoint) :=
  [fun pt lon => { pt with lon }, fun pt lat => { pt with lat }]

/-- The fields of a size in the order of its text. -/
def GeoSize.stores : List (GeoSize → ℚ → GeoSize) :=
  [fun size width => { size with width },
    fun size height => { size with height }]

/-- The fields of a rectangle in the order of its text. -/
def GeoRect.stores : List (GeoRect → ℚ → GeoRect) :=
  [fun rc x => { rc with x }, fun rc y => { rc with y },
    fun rc width => { rc with width }, fun rc height => { rc with height }]

/-- The fields of a circle in the order of its text. -/
def GeoCircle.stores : List (GeoCircle → ℚ → GeoCircle) :=
  [fun circle lon => { circle with center := { circle.center with lon } },
    fun circle lat => { circle with center := { circle.center with lat } },
    fun circle radius => { circle with radius }]

/-- The radius comes last, so a failure never changes it. -/
theorem radius_of_leftBehind {cast : LexicalCast} {text : String}
    {target result : GeoCircle}
    (left : LeftBehind cast GeoCircle.stores text target result) :
    result.radius = target.radius := by
  rcases exists_numbers_of_leftBehind left with rfl | ⟨numbers, few, rfl⟩
  · rfl
  · match numbers, few with
    | [], _ => rfl
    | [_], _ => rfl
    | [_, _], _ => rfl
    | _ :: _ :: _ :: _, few =>
        simp only [List.length_cons, GeoCircle.stores, List.length_nil] at few
        omega

/-- A failed parse leaves its target untouched up to the items before the first
malformed one.  A rectangle query with a malformed circle runs with the default
radius, and with the default center up to those items. -/
theorem failed_parse_leaves_items (cast : LexicalCast) :
    (∀ text pt, (GeoPoint.fromText cast text pt).1 = false →
        LeftBehind cast GeoPoint.stores text pt
          (GeoPoint.fromText cast text pt).2) ∧
      (∀ text size, (GeoSize.fromText cast text size).1 = false →
        LeftBehind cast GeoSize.stores text size
          (GeoSize.fromText cast text size).2) ∧
      (∀ text circle, (GeoCircle.fromText cast text circle).1 = false →
        LeftBehind cast GeoCircle.stores text circle
            (GeoCircle.fromText cast text circle).2 ∧
          (GeoCircle.fromText cast text circle).2.radius = circle.radius) ∧
      (∀ text rc, (GeoRect.fromText cast text rc).1 = false →
        LeftBehind cast GeoRect.stores text rc
          (GeoRect.fromText cast text rc).2) ∧
      ∀ vars qc, parseSpatialQuery cast vars = .ok qc →
        qc.sqt = .byRectangle →
          LeftBehind cast GeoCircle.stores (getQsvar vars "circle" "") {}
              qc.circle ∧
            qc.circle.radius = 0 := by
  have circle :
      ∀ text circle, (GeoCircle.fromText cast text circle).1 = false →
        LeftBehind cast GeoCircle.stores text circle
            (GeoCircle.fromText cast text circle).2 ∧
          (GeoCircle.fromText cast text circle).2.radius =
            circle.radius := by
    intro text circle failed
    have left :
        LeftBehind cast GeoCircle.stores text circle
          (GeoCircle.fromText cast text circle).2 :=
      leftBehind_of_failed failed
    exact ⟨left, radius_of_leftBehind left⟩
  refine ⟨fun text pt failed => leftBehind_of_failed failed,
    fun text size failed => leftBehind_of_failed failed, circle,
    fun text rc failed => leftBehind_of_failed failed, ?_⟩
  intro vars qc parsed byRectangle
  obtain ⟨-, -, -, -, isCircle, shape⟩ := parseSpatialQuery_eq_ok parsed
  rw [byRectangle] at shape
  rw [isCircle]
  exact circle _ _ shape.1

/-- The text `1,x` changes the longitude of a point, and a rectangle query with
the circle `116.4,x,1` has a center that is not the default. -/
theorem failed_parse_changes_target :
    (GeoPoint.fromText decimalCast "1,x" {}).1 = false ∧
      (GeoPoint.fromText decimalCast "1,x" {}).2 = { lon := 1 } ∧
      (GeoPoint.fromText decimalCast "1,x" {}).2 ≠ {} ∧
      ∃ (vars : String → String) (qc : QueryCase),
        vars "circle" = "116.4,x,1" ∧
          parseSpatialQuery decimalCast vars = .ok qc ∧
          qc.sqt = .byRectangle ∧
          qc.circle = { center := { lon := 1164 / 10 } } ∧
          qc.circle ≠ {} := by
  refine ⟨by decide +kernel, by decide +kernel, by decide +kernel, ?_⟩
  refine ⟨fun name =>
      if name = "circle" then "116.4,x,1"
      else if name = "rect" then "116,39,0.1,0.1" else "",
    { circle := { center := { lon := 1164 / 10 } }
      rect := { x := 116, y := 39, width := 1 / 10, height := 1 / 10 }
      sqt := .byRectangle
      qot := .byTime
      elapsed := 0
      groupId := ""
      maxnum := 1 },
    rfl, by decide +kernel, rfl, rfl, by decide +kernel⟩

end LocationServer

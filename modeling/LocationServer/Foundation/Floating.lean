import Mathlib.Algebra.Order.Ring.Rat

/-!
# Floating-point numbers without rounding

Besides the finite numbers, which are exact rationals here, a floating-point
type has two infinities and a value that is not a number.  The operations and
the comparison treat these as IEEE 754 says; the two zeros are one.

`min` and `max` are those of the C++ library, which compare with `<` alone.
-/

namespace Floating

inductive Number where
  | finite (value : ℚ)
  | infinity (negative : Bool)
  | nan
  deriving DecidableEq, Repr

namespace Number

instance (n : ℕ) : OfNat Number n where
  ofNat := .finite n

/-- The number is neither an infinity nor `nan`. -/
def IsFinite : Number → Prop
  | .finite _ => True
  | _ => False

instance : DecidablePred IsFinite
  | .finite _ => isTrue trivial
  | .infinity _ => isFalse id
  | .nan => isFalse id

/-! ## Arithmetic -/

def neg : Number → Number
  | .finite value => .finite (-value)
  | .infinity negative => .infinity (!negative)
  | .nan => .nan

def add : Number → Number → Number
  | .finite left, .finite right => .finite (left + right)
  | .finite _, .infinity negative => .infinity negative
  | .infinity negative, .finite _ => .infinity negative
  | .infinity left, .infinity right =>
      if left = right then .infinity left else .nan
  | .nan, _ => .nan
  | _, .nan => .nan

/-- An infinity times a finite number. -/
def scaleInfinity (negative : Bool) (factor : ℚ) : Number :=
  if factor = 0 then .nan else .infinity (negative ^^ decide (factor < 0))

def mul : Number → Number → Number
  | .finite left, .finite right => .finite (left * right)
  | .finite left, .infinity negative => scaleInfinity negative left
  | .infinity negative, .finite right => scaleInfinity negative right
  | .infinity left, .infinity right => .infinity (left ^^ right)
  | .nan, _ => .nan
  | _, .nan => .nan

/-- Repeated multiplication. -/
def pow (base : Number) : ℕ → Number
  | 0 => .finite 1
  | exponent + 1 => (pow base exponent).mul base

instance : Add Number := ⟨add⟩

instance : Sub Number := ⟨fun left right => left.add right.neg⟩

instance : Mul Number := ⟨mul⟩

instance : Pow Number ℕ := ⟨pow⟩

/-! ## Comparison -/

/-- `nan` is neither below nor above anything. -/
def below : Number → Number → Bool
  | .finite left, .finite right => decide (left < right)
  | .finite _, .infinity negative => !negative
  | .infinity negative, .finite _ => negative
  | .infinity left, .infinity right => left && !right
  | .nan, _ => false
  | _, .nan => false

instance : LT Number := ⟨fun left right => left.below right = true⟩

instance : DecidableLT Number :=
  fun left right => inferInstanceAs (Decidable (left.below right = true))

/-- `std::min`. -/
instance : Min Number where
  min left right := if right < left then right else left

/-- `std::max`. -/
instance : Max Number where
  max left right := if left < right then right else left

theorem add_comm (x y : Number) : x + y = y + x := by
  cases x with
  | finite left =>
      cases y with
      | finite right => exact congrArg finite (Rat.add_comm left right)
      | infinity negative => rfl
      | nan => rfl
  | infinity negative =>
      cases y with
      | finite right => rfl
      | infinity other => cases negative <;> cases other <;> rfl
      | nan => rfl
  | nan => cases y <;> rfl

/-! ## The value that is not a number -/

@[simp]
theorem sub_nan (x : Number) : x - nan = nan := by
  cases x <;> rfl

@[simp]
theorem nan_add (x : Number) : nan + x = nan := by
  cases x <;> rfl

@[simp]
theorem not_nan_lt (x : Number) : ¬ nan < x := by
  cases x <;> exact Bool.false_ne_true

@[simp]
theorem not_lt_nan (x : Number) : ¬ x < nan := by
  cases x <;> exact Bool.false_ne_true

/-! ## Finite numbers -/

@[simp]
theorem finite_sub_finite (left right : ℚ) :
    finite left - finite right = finite (left - right) := by
  rw [sub_eq_add_neg]
  rfl

@[simp]
theorem finite_add_finite (left right : ℚ) :
    finite left + finite right = finite (left + right) :=
  rfl

@[simp]
theorem finite_lt_finite_iff (left right : ℚ) :
    finite left < finite right ↔ left < right :=
  decide_eq_true_iff

theorem IsFinite.exists_eq {x : Number} (isFinite : x.IsFinite) :
    ∃ value, x = finite value := by
  cases x with
  | finite value => exact ⟨value, rfl⟩
  | infinity negative => exact isFinite.elim
  | nan => exact isFinite.elim

/-! ## Squares -/

theorem finite_one_mul (x : Number) : (finite 1).mul x = x := by
  cases x with
  | finite value => exact congrArg finite (one_mul value)
  | infinity negative => cases negative <;> rfl
  | nan => rfl

theorem sq_eq_mul (x : Number) : x ^ 2 = x * x := by
  have unfolded : x ^ 2 = ((finite 1).mul x).mul x := rfl
  rw [unfolded, finite_one_mul]
  rfl

@[simp]
theorem nan_sq : nan ^ 2 = nan :=
  rfl

@[simp]
theorem finite_sq (value : ℚ) : finite value ^ 2 = finite (value ^ 2) := by
  rw [sq_eq_mul, sq]
  rfl

/-- A number that no finite one exceeds: the positive infinity or `nan`. -/
def IsUnbounded (x : Number) : Prop :=
  x = .infinity false ∨ x = .nan

/-- Such numbers do not compare with one another. -/
theorem IsUnbounded.not_lt {x y : Number} (left : x.IsUnbounded)
    (right : y.IsUnbounded) : ¬ x < y := by
  rcases left with rfl | rfl
  · rcases right with rfl | rfl
    · exact Bool.false_ne_true
    · exact not_lt_nan _
  · exact not_nan_lt _

theorem isUnbounded_sq {x : Number} (notFinite : ¬ x.IsFinite) :
    (x ^ 2).IsUnbounded := by
  cases x with
  | finite value => exact absurd trivial notFinite
  | infinity negative => cases negative <;> exact Or.inl rfl
  | nan => exact Or.inr rfl

theorem not_isFinite_sub {x : Number} (notFinite : ¬ x.IsFinite)
    (y : Number) : ¬ (x - y).IsFinite := by
  cases x with
  | finite value => exact absurd trivial notFinite
  | infinity negative =>
      cases y with
      | finite value => exact id
      | infinity other => cases negative <;> cases other <;> exact id
      | nan => exact id
  | nan => cases y <;> exact id

/-- A square added to an unbounded number leaves it unbounded. -/
theorem IsUnbounded.add_sq {x : Number} (unbounded : x.IsUnbounded)
    (y : Number) : (x + y ^ 2).IsUnbounded := by
  rcases unbounded with rfl | rfl
  · cases y with
    | finite value => exact finite_sq value ▸ Or.inl rfl
    | infinity negative => cases negative <;> exact Or.inl rfl
    | nan => exact Or.inr rfl
  · exact Or.inr (nan_add _)

theorem IsUnbounded.sq_add {x : Number} (unbounded : x.IsUnbounded)
    (y : Number) : (y ^ 2 + x).IsUnbounded := by
  rw [Number.add_comm]
  exact unbounded.add_sq y

end Number

end Floating

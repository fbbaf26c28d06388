import Mathlib.Algebra.Order.Field.Rat
import Mathlib.Algebra.Group.Defs

/-!
# Doubles without rounding

The values of a C++ `double`, with exact rationals for the finite ones. Infinities and
NaN behave as in IEEE 754. Rounding, overflow and the sign of zero are not modelled.
-/

inductive Double
  | fin (q : ℚ)
  | inf (negative : Bool)
  | nan
deriving DecidableEq

namespace Double

/-- `static_cast<double>` of an integer. -/
def ofInt (n : Int) : Double := .fin n

/-- `std::isfinite`. -/
def isFinite : Double → Bool
  | .fin _ => true
  | _ => false

def add : Double → Double → Double
  | .fin p, .fin q => .fin (p + q)
  | .fin _, .inf n => .inf n
  | .inf m, .fin _ => .inf m
  | .inf m, .inf n => if m = n then .inf m else .nan
  | .nan, _ => .nan
  | .fin _, .nan => .nan
  | .inf _, .nan => .nan

def neg : Double → Double
  | .fin p => .fin (-p)
  | .inf m => .inf (!m)
  | .nan => .nan

/-- Zero times an infinity is NaN. -/
def mul : Double → Double → Double
  | .fin p, .fin q => .fin (p * q)
  | .fin p, .inf n => if p = 0 then .nan else .inf (n != decide (p < 0))
  | .inf m, .fin q => if q = 0 then .nan else .inf (m != decide (q < 0))
  | .inf m, .inf n => .inf (m != n)
  | .nan, _ => .nan
  | .fin _, .nan => .nan
  | .inf _, .nan => .nan

/-- Division by an unsigned zero. -/
def div : Double → Double → Double
  | .fin p, .fin q =>
    if q = 0 then if p = 0 then .nan else .inf (decide (p < 0)) else .fin (p / q)
  | .fin _, .inf _ => .fin 0
  | .inf m, .fin q => .inf (m != decide (q < 0))
  | .inf _, .inf _ => .nan
  | .nan, _ => .nan
  | .fin _, .nan => .nan
  | .inf _, .nan => .nan

/-- `<`, which is false whenever a side is NaN. -/
def lt : Double → Double → Bool
  | .fin p, .fin q => decide (p < q)
  | .fin _, .inf n => !n
  | .inf m, .fin _ => m
  | .inf m, .inf n => m && !n
  | .nan, _ => false
  | .fin _, .nan => false
  | .inf _, .nan => false

/-- `<=`, which is false whenever a side is NaN. -/
def le (a b : Double) : Bool := lt a b || (a == b && a != .nan)

instance : Zero Double := ⟨.fin 0⟩
instance : Add Double := ⟨add⟩
instance : Sub Double := ⟨fun a b => add a (neg b)⟩
instance : Mul Double := ⟨mul⟩
instance : Div Double := ⟨div⟩
instance : LT Double := ⟨fun a b => lt a b = true⟩
instance : LE Double := ⟨fun a b => le a b = true⟩
instance (a b : Double) : Decidable (a < b) := inferInstanceAs (Decidable (lt a b = true))
instance (a b : Double) : Decidable (a ≤ b) := inferInstanceAs (Decidable (le a b = true))

/-- `std::max`: the second argument only where it is the larger one. -/
def max (a b : Double) : Double := if a < b then b else a

/-! ## Order -/

theorem lt_def (a b : Double) : a < b ↔ lt a b = true := Iff.rfl

theorem le_def (a b : Double) : a ≤ b ↔ le a b = true := Iff.rfl

/-- Numbers can be compared. -/
protected theorem not_lt {a b : Double} (ha : a ≠ nan) (hb : b ≠ nan) : ¬a < b ↔ b ≤ a := by
  rw [lt_def, le_def]
  cases a <;> cases b
  case fin.fin p q => simp [lt, le, not_lt, le_iff_lt_or_eq]
  case inf.inf m n => cases m <;> cases n <;> decide
  all_goals simp_all [lt, le]

protected theorem not_le {a b : Double} (ha : a ≠ nan) (hb : b ≠ nan) : ¬a ≤ b ↔ b < a := by
  rw [← Double.not_lt hb ha, not_not]

/-! ## Numbers -/

/-- The number, or zero where there is none. -/
def toRat : Double → ℚ
  | .fin q => q
  | _ => 0

@[simp]
theorem toRat_fin (q : ℚ) : (fin q).toRat = q := rfl

theorem fin_add (p q : ℚ) : fin p + fin q = fin (p + q) := rfl

theorem fin_sub (p q : ℚ) : fin p - fin q = fin (p - q) := by
  rw [sub_eq_add_neg]
  rfl

theorem fin_mul_ofInt (p : ℚ) (n : Int) : fin p * ofInt n = fin (p * n) := rfl

theorem fin_div (p : ℚ) {q : ℚ} (hq : q ≠ 0) : fin p / fin q = fin (p / q) := by
  have hdiv : fin p / fin q = div (fin p) (fin q) := rfl
  rw [hdiv, div, if_neg hq]

theorem fin_lt (p q : ℚ) : fin p < fin q ↔ p < q := by simp [lt_def, lt]

theorem fin_le (p q : ℚ) : fin p ≤ fin q ↔ p ≤ q := by simp [le_def, le, lt, le_iff_lt_or_eq]

/-! ## Addition

Without rounding, addition is associative and commutative on all values, so a sum over an
unordered table is well defined.
-/

theorem add_def (a b : Double) : a + b = add a b := rfl

theorem zero_def : (0 : Double) = .fin 0 := rfl

protected theorem add_comm (a b : Double) : a + b = b + a := by
  cases a <;> cases b <;> simp only [add_def, add]
  case fin.fin p q => rw [Rat.add_comm]
  case inf.inf m n => cases m <;> cases n <;> rfl

protected theorem add_assoc (a b c : Double) : a + b + c = a + (b + c) := by
  cases a <;> cases b <;> cases c <;> simp only [add_def, add]
  case fin.fin.fin p q r => rw [Rat.add_assoc]
  case inf.inf.inf l m n => cases l <;> cases m <;> cases n <;> rfl
  case inf.inf.fin l m q => cases l <;> cases m <;> rfl
  case inf.inf.nan l m => cases l <;> cases m <;> rfl
  case fin.inf.inf p m n => cases m <;> cases n <;> rfl

protected theorem zero_add (a : Double) : 0 + a = a := by
  cases a <;> simp [zero_def, add_def, add]

instance : AddCommMonoid Double where
  add_assoc := Double.add_assoc
  add_comm := Double.add_comm
  zero_add := Double.zero_add
  add_zero a := by rw [Double.add_comm, Double.zero_add]
  nsmul := nsmulRec

protected theorem sub_zero (a : Double) : a - 0 = a := by
  have hsub : a - 0 = a + neg 0 := rfl
  have hneg : neg 0 = 0 := by simp [zero_def, neg]
  rw [hsub, hneg, add_zero]

theorem mul_ofInt_eq_zero {a : Double} {n : Int} (ha : a.isFinite = true) (hn : n ≠ 0) :
    a * ofInt n = 0 ↔ a = 0 := by
  cases a with
  | fin p =>
    have hmul : fin p * ofInt n = fin (p * n) := rfl
    simp [hmul, zero_def, hn]
  | _ => cases ha

end Double

/-!
# Scalars

The minimizer is written once, for any type of scalars that has the four operations, a square root,
the two comparisons, decimal literals, an infinity and the round-off constants. Nothing here assumes
that the arithmetic is exact: every algorithm fixes the order of its operations, so one text runs on
`Float` and on `Float32` and can be studied over exact numbers.

Comparisons carry all that the algorithms need to know about special values. A value that is not a
number compares with nothing, itself included, so `x ≤ x` says that `x` is a number. The two
selections `larger` and `smaller` answer with the other argument when one of them is not a number.
-/

set_option autoImplicit false

namespace BoxNewton

/-- A type of scalars. The only law asked for is that the unbounded interval is an interval. -/
class Scalar (α : Type) extends Add α, Sub α, Mul α, Div α, Neg α, Zero α, One α, OfScientific α,
    LT α, LE α where
  decideLT : DecidableLT α
  decideLE : DecidableLE α
  sqrt : α → α
  /-- Stands for a bound that is not there. -/
  infinity : α
  /-- The distance from one to the next scalar. -/
  epsilon : α
  /-- The square root of `epsilon`, the relative step of first differences. -/
  sqrtEpsilon : α
  /-- The cube root of `epsilon`, the relative step of differences of differences. -/
  cbrtEpsilon : α
  /-- The square root of the least positive scalar. Step lengths below it have underflowed. -/
  tinyStep : α
  neg_infinity_le_infinity : -infinity ≤ infinity

attribute [reducible, instance] Scalar.decideLT Scalar.decideLE

namespace Scalar

variable {α : Type} [Scalar α]

/-- Numbers are the scalars that compare with themselves. -/
def IsNumber (x : α) : Prop := x ≤ x

instance (x : α) : Decidable (IsNumber x) := inferInstanceAs (Decidable (x ≤ x))

/-- The larger of two scalars; the other one when one of them is not a number. -/
def larger (x y : α) : α := if x < y then y else if IsNumber x then x else y

/-- The smaller of two scalars; the other one when one of them is not a number. -/
def smaller (x y : α) : α := if y < x then y else if IsNumber x then x else y

/-- The distance from zero. -/
def abs (x : α) : α := if x < 0 then -x else x

/-- Finite scalars lie strictly between the infinities. -/
def IsFinite (x : α) : Prop := -infinity < x ∧ x < infinity

instance (x : α) : Decidable (IsFinite x) := inferInstanceAs (Decidable (_ ∧ _))

/-- Equality as the order sees it: signed zeros are equal, and what is not a number equals
nothing. -/
def Agree (x y : α) : Prop := x ≤ y ∧ y ≤ x

instance (x y : α) : Decidable (Agree x y) := inferInstanceAs (Decidable (_ ∧ _))

/-- One with the sign of `x`. A negative zero is told from a positive one by its reciprocal. What is
not a number has no sign that could be seen; the answer for it is `side`. -/
def unitLike (side x : α) : α :=
  if x < 0 ∨ 1 / x < 0 then -1 else if IsNumber x then 1 else side

/-- A natural number as a scalar, rounded to the nearest one. -/
def ofNat (k : Nat) : α := OfScientific.ofScientific k false 0

end Scalar

/-! ## The two floating-point types -/

instance : Scalar Float where
  decideLT := inferInstance
  decideLE := inferInstance
  sqrt := Float.sqrt
  infinity := 1.0 / 0.0
  epsilon := 2.220446049250313e-16
  sqrtEpsilon := 1.4901161193847656e-8
  cbrtEpsilon := 6.0554544523933395e-6
  tinyStep := 2.2227587494850775e-162
  neg_infinity_le_infinity := by decide

instance : Scalar Float32 where
  decideLT := inferInstance
  decideLE := inferInstance
  sqrt := Float32.sqrt
  infinity := 1.0 / 0.0
  epsilon := 1.1920929e-7
  sqrtEpsilon := 0.00034526698
  cbrtEpsilon := 0.0049215667
  tinyStep := 3.743392e-23
  neg_infinity_le_infinity := by decide

end BoxNewton

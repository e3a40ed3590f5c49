import Mathlib
import BoxNewton.Options
import BoxNewton.Proofs.ExactNumbers

/-!
# Selections and products

What the trust region does to its radius it does by selecting the smaller or the larger of two scalars
and by multiplying with factors. A selection is one of the two scalars, and against a number it is a
bound, whatever the other scalar is.

Of the arithmetic little is used. Products with factors between zero and one are monotone and do not
exceed what is multiplied (`LawfulProducts`), which holds under rounding; products of positive scalars
are positive (`NoUnderflow`), which holds in exact arithmetic only. The extended reals obey both laws.

Options that pass the check are in their ranges (`Options.Usable`, `RegionOptions.Usable`).
-/

set_option autoImplicit false

namespace BoxNewton

namespace Scalar

section Selections

variable {α : Type} [Scalar α] {x y z : α}

theorem smaller_cases (x y : α) : smaller x y = x ∨ smaller x y = y := by
  unfold smaller
  split
  · exact .inr rfl
  · split
    · exact .inl rfl
    · exact .inr rfl

theorem le_smaller (hx : z ≤ x) (hy : z ≤ y) : z ≤ smaller x y := by
  rcases smaller_cases x y with same | same
  · exact same.symm ▸ hx
  · exact same.symm ▸ hy

theorem lt_smaller (hx : z < x) (hy : z < y) : z < smaller x y := by
  rcases smaller_cases x y with same | same
  · exact same.symm ▸ hx
  · exact same.symm ▸ hy

variable [LawfulOrder α]

theorem le_of_lt (h : x < y) : x ≤ y := (LawfulOrder.lt_iff.1 h).1

theorem lt_of_lt_of_le (h : x < y) (k : y ≤ z) : x < z :=
  LawfulOrder.lt_iff.2 ⟨LawfulOrder.le_trans (le_of_lt h) k, fun back =>
    (LawfulOrder.lt_iff.1 h).2 (LawfulOrder.le_trans k back)⟩

theorem lt_of_le_of_lt (h : x ≤ y) (k : y < z) : x < z :=
  LawfulOrder.lt_iff.2 ⟨LawfulOrder.le_trans h (le_of_lt k), fun back =>
    (LawfulOrder.lt_iff.1 k).2 (LawfulOrder.le_trans back h)⟩

/-- Numbers that are not in order are in the other order. -/
theorem lt_of_not_le (hx : IsNumber x) (hy : IsNumber y) (h : ¬ x ≤ y) : y < x :=
  LawfulOrder.lt_iff.2 ⟨(LawfulOrder.le_total hx hy).resolve_left h, h⟩

theorem smaller_le_right (number : IsNumber y) (x : α) : smaller x y ≤ y := by
  unfold smaller
  split
  · exact number
  · rename_i notBelow
    split
    · rename_i other
      exact le_of_not_lt other number notBelow
    · exact number

theorem smaller_le_left (number : IsNumber x) (y : α) : smaller x y ≤ x := by
  unfold smaller
  by_cases below : y < x
  · rw [if_pos below]
    exact le_of_lt below
  · rw [if_neg below, if_pos number]
    exact number

theorem le_larger_left (number : IsNumber x) (y : α) : x ≤ larger x y := by
  unfold larger
  by_cases below : x < y
  · rw [if_pos below]
    exact le_of_lt below
  · rw [if_neg below, if_pos number]
    exact number

theorem le_larger_right (number : IsNumber y) (x : α) : y ≤ larger x y := by
  unfold larger
  split
  · exact number
  · rename_i notBelow
    split
    · rename_i other
      exact le_of_not_lt number other notBelow
    · exact number

end Selections

/-! ## Laws of products -/

/-- Products with factors between zero and one are monotone and do not exceed what is multiplied. -/
class LawfulProducts (α : Type) [Scalar α] : Prop extends LawfulOrder α where
  zero_lt_one : (0 : α) < 1
  zero_lt_hundred : (0 : α) < 100.0
  mul_nonneg {a x : α} : 0 < a → a < 1 → 0 ≤ x → 0 ≤ a * x
  mul_le_self {a x : α} : 0 < a → a < 1 → 0 ≤ x → a * x ≤ x
  mul_le_mul {a b x y : α} : 0 < a → a ≤ b → b < 1 → 0 ≤ x → x ≤ y → a * x ≤ b * y

/-- Products of positive scalars are positive. -/
class NoUnderflow (α : Type) [Scalar α] : Prop where
  mul_pos {a x : α} : 0 < a → 0 < x → 0 < a * x

instance : LawfulProducts EReal where
  zero_lt_one := one_pos
  zero_lt_hundred := by
    change ((0 : ℝ) : EReal) < ((OfScientific.ofScientific 1000 true 1 : ℝ) : EReal)
    rw [EReal.coe_lt_coe_iff]
    norm_num
  mul_nonneg := fun factor _ nonneg => mul_nonneg factor.le nonneg
  mul_le_self := fun {a x} _ below nonneg =>
    (mul_le_mul_of_nonneg_right below.le nonneg).trans_eq (one_mul x)
  mul_le_mul := fun factor less _ nonneg below =>
    mul_le_mul less below nonneg (factor.le.trans less)

instance : NoUnderflow EReal where
  mul_pos := EReal.mul_pos

theorem mul_lt_top {a b : EReal} (aPos : 0 < a) (aTop : a < ⊤) (bPos : 0 < b) (bTop : b < ⊤) :
    a * b < ⊤ := by
  obtain ⟨x, rfl⟩ := exists_coe_of_isFinite ⟨EReal.bot_lt_zero.trans aPos, aTop⟩
  obtain ⟨y, rfl⟩ := exists_coe_of_isFinite ⟨EReal.bot_lt_zero.trans bPos, bTop⟩
  rw [← EReal.coe_mul]
  exact EReal.coe_lt_top _

end Scalar

/-! ## Options in their ranges -/

section Options

variable {α : Type} [Scalar α]

/-- The ranges of the options of the trust region. -/
structure RegionOptions.Usable (o : RegionOptions α) : Prop where
  largest_pos : 0 < o.largestRadius
  accept_pos : 0 < o.acceptFrom
  accept_le : o.acceptFrom ≤ o.shrinkBelow
  shrink_lt : o.shrinkBelow < o.growFrom
  grow_lt : o.growFrom < 1
  strong_pos : 0 < o.strongShrink
  strong_lt : o.strongShrink < o.mildShrink
  mild_lt : o.mildShrink < 1
  growth_gt : 1 < o.growth

theorem RegionOptions.Usable.mild_pos [Scalar.LawfulOrder α] {o : RegionOptions α} (usable : o.Usable) :
    0 < o.mildShrink :=
  Scalar.lt_of_lt_of_le usable.strong_pos (Scalar.le_of_lt usable.strong_lt)

theorem RegionOptions.Usable.strong_lt_one [Scalar.LawfulOrder α] {o : RegionOptions α}
    (usable : o.Usable) : o.strongShrink < 1 :=
  Scalar.lt_of_lt_of_le usable.strong_lt (Scalar.le_of_lt usable.mild_lt)

theorem RegionOptions.fault?_eq_none {o : RegionOptions α} : o.fault? = none ↔ o.Usable := by
  unfold fault?
  constructor
  · intro none
    split at none
    · cases none
    · rename_i largest
      split at none
      · cases none
      · rename_i thresholds
        split at none
        · cases none
        · rename_i factors
          obtain ⟨accept, acceptLe, shrink, grow⟩ := Decidable.not_not.1 thresholds
          obtain ⟨strong, strongLt, mild, growth⟩ := Decidable.not_not.1 factors
          exact ⟨Decidable.not_not.1 largest, accept, acceptLe, shrink, grow, strong, strongLt,
            mild, growth⟩
  · rintro ⟨largest, accept, acceptLe, shrink, grow, strong, strongLt, mild, growth⟩
    rw [if_neg (not_not.2 largest), if_neg (not_not.2 ⟨accept, acceptLe, shrink, grow⟩),
      if_neg (not_not.2 ⟨strong, strongLt, mild, growth⟩)]

/-- The ranges of the options. -/
structure Options.Usable (o : Options α) : Prop where
  mu0 : 0 < o.mu0 ∧ o.mu0 < 0.5
  mu1_pos : 0 < o.mu1
  one_lt_sigma : 1 < o.sigma
  inner : 0 < o.innerTolerance ∧ o.innerTolerance < 1
  tolerances : 0 ≤ o.absoluteTolerance ∧ 0 ≤ o.relativeTolerance
  limit : o.maxInnerIterations ≠ 0
  region : o.region.Usable

theorem Options.fault?_eq_none {o : Options α} : o.fault? = none ↔ o.Usable := by
  unfold fault?
  constructor
  · intro none
    split at none
    · cases none
    rename_i mu0
    split at none
    · cases none
    rename_i mu1
    split at none
    · cases none
    rename_i sigma
    split at none
    · cases none
    rename_i inner
    split at none
    · cases none
    rename_i tolerances
    split at none
    · cases none
    rename_i limit
    exact ⟨Decidable.not_not.1 mu0, Decidable.not_not.1 mu1, Decidable.not_not.1 sigma,
      Decidable.not_not.1 inner, Decidable.not_not.1 tolerances, limit,
      RegionOptions.fault?_eq_none.1 none⟩
  · rintro ⟨mu0, mu1, sigma, inner, tolerances, limit, region⟩
    rw [if_neg (not_not.2 mu0), if_neg (not_not.2 mu1), if_neg (not_not.2 sigma),
      if_neg (not_not.2 inner), if_neg (not_not.2 tolerances), if_neg limit,
      RegionOptions.fault?_eq_none.2 region]

theorem Options.region_usable {options : Options α} (usable : options.fault? = none) :
    options.region.Usable :=
  (fault?_eq_none.1 usable).region

end Options

section Standard

/-- The standard options of the trust region are in their ranges when the numbers are exact. -/
theorem RegionOptions.standard_usable : (standard : RegionOptions EReal).Usable := by
  constructor
  case largest_pos =>
    change (0 : EReal) < 1 / Scalar.sqrtEpsilon
    rw [Scalar.sqrtEpsilon_eq, ← EReal.coe_one, ← EReal.coe_div, EReal.coe_pos]
    norm_num
  all_goals
    simp only [standard, Scalar.ofScientific_eq, ← EReal.coe_zero, ← EReal.coe_one,
      EReal.coe_lt_coe_iff, EReal.coe_le_coe_iff]
    norm_num

theorem Options.fault?_standard : (standard : Options EReal).fault? = none := by
  have region : (standard : Options EReal).region.fault? = none :=
    RegionOptions.fault?_eq_none.2 RegionOptions.standard_usable
  unfold fault?
  rw [region]
  simp only [standard, Scalar.ofScientific_eq, Scalar.sqrtEpsilon_eq, ← EReal.coe_zero,
    ← EReal.coe_one, EReal.coe_lt_coe_iff, EReal.coe_le_coe_iff]
  norm_num

end Standard

end BoxNewton

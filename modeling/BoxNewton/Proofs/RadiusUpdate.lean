import Mathlib
import BoxNewton.Proofs.Judgement
import BoxNewton.Proofs.Products
import BoxNewton.Solver.Run

/-!
# The radius, one step at a time

What a single operation does to the radius. Setting the radius, limiting it by a step and updating it
keep it between zero and the largest radius (`TrustRegion.Capped`), under rounding too; when products do
not underflow they keep it positive (`TrustRegion.InRange`). The norm of the step is arbitrary in all
this: it may be zero, and it need not be a number.

An update after a ratio below the acceptance threshold shrinks the radius
(`TrustRegion.revised_shrinks`). An update after a ratio that is not a number never does
(`TrustRegion.update_stays`): such a ratio fails every test of the update, so the last case applies, which
keeps the radius or increases it.
-/

set_option autoImplicit false

namespace BoxNewton

open Scalar

variable {α : Type} [Scalar α]

namespace TrustRegion

variable {o : RegionOptions α} {region : TrustRegion α} {norm : α} {n : Nat} {t : Trial α}
  {step : Vec α n} {known : Vec α n → Prop} {rating : Rating α n}

/-- An update takes the wanted radius up to the largest one, or shrinks strongly. -/
theorem update_cases (o : RegionOptions α) (region : TrustRegion α) (norm : α) :
    0 < smaller (region.wantedRadius o norm) o.largestRadius ∧
        (region.update o norm).radius = smaller (region.wantedRadius o norm) o.largestRadius ∨
      ¬ 0 < smaller (region.wantedRadius o norm) o.largestRadius ∧
        (region.update o norm).radius = o.strongShrink * region.radius := by
  by_cases positive : 0 < smaller (region.wantedRadius o norm) o.largestRadius
  · exact .inl ⟨positive, if_pos positive⟩
  · exact .inr ⟨positive, if_neg positive⟩

theorem limitBy_cases (region : TrustRegion α) (norm : α) :
    (0 < norm ∧ norm < region.radius ∧ region.limitBy norm = { region with radius := norm }) ∨
      region.limitBy norm = region := by
  by_cases limits : 0 < norm ∧ norm < region.radius
  · exact .inl ⟨limits.1, limits.2, if_pos limits⟩
  · exact .inr (if_neg limits)

/-! ## Between zero and the largest radius -/

/-- Holds when the radius is between zero and the largest one. -/
structure Capped (o : RegionOptions α) (region : TrustRegion α) : Prop where
  nonneg : 0 ≤ region.radius
  le_largest : region.radius ≤ o.largestRadius

/-- A region is judged before it is revised, and stays capped. -/
theorem Capped.rated (capped : region.Capped o) (rates : Rates o region t step known (some rating)) :
    rating.region.Capped o :=
  ⟨rates.radius.symm ▸ capped.nonneg, rates.radius.symm ▸ capped.le_largest⟩

section Capped

variable [LawfulProducts α]

theorem capped_start (usable : o.Usable) (region : TrustRegion α) {radius : α} (positive : 0 < radius) :
    (region.start o radius).Capped o where
  nonneg := le_of_lt (lt_smaller positive usable.largest_pos)
  le_largest := smaller_le_right (LawfulOrder.number_right (le_of_lt usable.largest_pos)) _

theorem limitBy_le (number : IsNumber region.radius) (norm : α) :
    (region.limitBy norm).radius ≤ region.radius := by
  rcases limitBy_cases region norm with ⟨-, below, same⟩ | same
  · rw [same]
    exact le_of_lt below
  · rw [same]
    exact number

theorem Capped.limitBy (capped : region.Capped o) (norm : α) : (region.limitBy norm).Capped o where
  nonneg := by
    rcases limitBy_cases region norm with ⟨positive, -, same⟩ | same
    · rw [same]
      exact le_of_lt positive
    · rw [same]
      exact capped.nonneg
  le_largest := LawfulOrder.le_trans (limitBy_le (LawfulOrder.number_left capped.le_largest) norm)
    capped.le_largest

theorem Capped.update (usable : o.Usable) (capped : region.Capped o) (norm : α) :
    (region.update o norm).Capped o := by
  have number := LawfulOrder.number_right (le_of_lt usable.largest_pos)
  have below := usable.strong_lt_one
  rcases update_cases o region norm with ⟨positive, same⟩ | ⟨-, same⟩
  · exact ⟨same ▸ le_of_lt positive, same ▸ smaller_le_right number _⟩
  · refine ⟨same ▸ LawfulProducts.mul_nonneg usable.strong_pos below capped.nonneg, ?_⟩
    rw [same]
    exact LawfulOrder.le_trans (LawfulProducts.mul_le_self usable.strong_pos below capped.nonneg)
      capped.le_largest

theorem Capped.limited (capped : region.Capped o) (first : Bool) (norm : α) :
    (region.limited first norm).Capped o := by
  cases first with
  | false => exact capped
  | true => exact capped.limitBy norm

theorem limited_le (number : IsNumber region.radius) (first : Bool) (norm : α) :
    (region.limited first norm).radius ≤ region.radius := by
  cases first with
  | false => exact number
  | true => exact limitBy_le number norm

theorem Capped.revised (usable : o.Usable) (capped : region.Capped o) (first : Bool) (norm : α) :
    (region.revised o first norm).Capped o :=
  (capped.limited first norm).update usable norm

/-! ## Shrinking -/

/-- After a ratio below the threshold of acceptance the radius is at most a moderate decrease. -/
theorem update_shrinks (usable : o.Usable) (nonneg : 0 ≤ region.radius)
    (low : region.ratio < o.acceptFrom) (norm : α) :
    (region.update o norm).radius ≤ o.mildShrink * region.radius := by
  have decreased : IsNumber (o.mildShrink * region.radius) :=
    LawfulOrder.number_right (LawfulProducts.mul_nonneg usable.mild_pos usable.mild_lt nonneg)
  have radius : IsNumber region.radius := LawfulOrder.number_right nonneg
  rcases update_cases o region norm with ⟨-, same⟩ | ⟨-, same⟩
  · have wanted : region.wantedRadius o norm ≤ o.mildShrink * region.radius := by
      rw [wantedRadius, if_pos low]
      exact smaller_le_right decreased _
    rw [same]
    exact LawfulOrder.le_trans (smaller_le_left (LawfulOrder.number_left wanted) _) wanted
  · rw [same]
    exact LawfulProducts.mul_le_mul usable.strong_pos (le_of_lt usable.strong_lt) usable.mild_lt
      nonneg radius

/-- A ratio that is a number but not acceptable shrinks the radius, and limiting the radius first makes
it no larger. -/
theorem revised_shrinks (usable : o.Usable) (capped : region.Capped o) (number : IsNumber region.ratio)
    (low : ¬ o.acceptFrom ≤ region.ratio) (first : Bool) (norm : α) :
    (region.revised o first norm).radius ≤ o.mildShrink * region.radius := by
  have threshold : IsNumber o.acceptFrom := LawfulOrder.number_right (le_of_lt usable.accept_pos)
  have below : (region.limited first norm).ratio < o.acceptFrom := by
    rw [limited_ratio]
    exact lt_of_not_le threshold number low
  have factor : o.mildShrink ≤ o.mildShrink := LawfulOrder.number_right (le_of_lt usable.mild_pos)
  have nonneg := (capped.limited first norm).nonneg
  have limited := limited_le (LawfulOrder.number_right capped.nonneg) first norm
  exact LawfulOrder.le_trans (update_shrinks usable nonneg below norm)
    (LawfulProducts.mul_le_mul usable.mild_pos factor usable.mild_lt nonneg limited)

/-- A ratio that is not a number fails every test, and the radius does not shrink. -/
theorem update_stays (usable : o.Usable) (capped : region.Capped o) (special : ¬ IsNumber region.ratio)
    (norm : α) : region.radius ≤ (region.update o norm).radius := by
  have fails : ∀ threshold, ¬ region.ratio < threshold := fun threshold below =>
    special (LawfulOrder.number_left (le_of_lt below))
  have radius : IsNumber region.radius := LawfulOrder.number_right capped.nonneg
  have wanted : region.radius ≤ region.wantedRadius o norm := by
    rw [wantedRadius, if_neg (fails _), if_neg (fails _), if_neg (fails _)]
    exact le_larger_left radius _
  have selected := le_smaller wanted capped.le_largest
  rcases update_cases o region norm with ⟨-, same⟩ | ⟨nonpos, same⟩
  · exact same ▸ selected
  · have zero : IsNumber (0 : α) := LawfulOrder.number_left capped.nonneg
    have vanishes := le_of_not_lt (LawfulOrder.number_right selected) zero nonpos
    rw [same]
    exact LawfulOrder.le_trans (LawfulOrder.le_trans selected vanishes)
      (LawfulProducts.mul_nonneg usable.strong_pos usable.strong_lt_one capped.nonneg)

end Capped

/-! ## Positive radii -/

/-- Holds when both radii are positive and not above the largest one. -/
structure InRange (o : RegionOptions α) (region : TrustRegion α) : Prop where
  start_pos : 0 < region.startRadius
  start_le : region.startRadius ≤ o.largestRadius
  radius_pos : 0 < region.radius
  radius_le : region.radius ≤ o.largestRadius

theorem InRange.reset (range : region.InRange o) : region.reset.InRange o :=
  ⟨range.start_pos, range.start_le, range.start_pos, range.start_le⟩

theorem InRange.rated (range : region.InRange o)
    (rates : Rates o region t step known (some rating)) : rating.region.InRange o := by
  obtain ⟨startPos, startLe, radiusPos, radiusLe⟩ := range
  rw [← rates.startRadius] at startPos startLe
  rw [← rates.radius] at radiusPos radiusLe
  exact ⟨startPos, startLe, radiusPos, radiusLe⟩

section InRange

variable [LawfulProducts α]

theorem InRange.capped (range : region.InRange o) : region.Capped o :=
  ⟨le_of_lt range.radius_pos, range.radius_le⟩

/-- The radius to start from is set in the range. -/
theorem inRange_start (usable : o.Usable) (region : TrustRegion α) {radius : α} (positive : 0 < radius) :
    (region.start o radius).InRange o :=
  have selected := lt_smaller positive usable.largest_pos
  have below := (capped_start usable region positive).le_largest
  ⟨selected, below, selected, below⟩

theorem InRange.limitBy (range : region.InRange o) (norm : α) : (region.limitBy norm).InRange o := by
  have below := (range.capped.limitBy norm).le_largest
  rcases limitBy_cases region norm with ⟨positive, -, same⟩ | same
  · rw [same] at below ⊢
    exact ⟨range.start_pos, range.start_le, positive, below⟩
  · rw [same]
    exact range

theorem InRange.update [NoUnderflow α] (usable : o.Usable) (range : region.InRange o) (norm : α) :
    (region.update o norm).InRange o := by
  refine ⟨range.start_pos, range.start_le, ?_, (range.capped.update usable norm).le_largest⟩
  rcases update_cases o region norm with ⟨positive, same⟩ | ⟨-, same⟩
  · exact same ▸ positive
  · exact same ▸ NoUnderflow.mul_pos usable.strong_pos range.radius_pos

theorem InRange.limited (range : region.InRange o) (first : Bool) (norm : α) :
    (region.limited first norm).InRange o := by
  cases first with
  | false => exact range
  | true => exact range.limitBy norm

theorem InRange.revised [NoUnderflow α] (usable : o.Usable) (range : region.InRange o) (first : Bool)
    (norm : α) : (region.revised o first norm).InRange o :=
  (range.limited first norm).update usable norm

end InRange

end TrustRegion

/-- The radius that a minimization starts from is positive. -/
theorem startRadius_pos [LawfulProducts α] (stationarity : α) : 0 < startRadius stationarity := by
  have one : IsNumber (1 : α) := LawfulOrder.number_right (le_of_lt LawfulProducts.zero_lt_one)
  refine lt_smaller ?_ LawfulProducts.zero_lt_hundred
  exact lt_of_lt_of_le LawfulProducts.zero_lt_one (le_larger_right one _)

end BoxNewton

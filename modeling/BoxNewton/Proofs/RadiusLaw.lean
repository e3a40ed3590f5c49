import Mathlib
import BoxNewton.Proofs.ObjectiveChange
import BoxNewton.Proofs.RadiusUpdate

/-!
# How far an update moves the radius

In exact arithmetic, the update after an acceptable ratio takes the interpolated length, keeps it between
a floor and a ceiling, and limits it by the largest radius (`TrustRegion.update_of_accepts`). Floor and
ceiling are multiples of the old radius that depend on the ratio alone, and both are monotone in it. The
bounds on the new radius, and its monotonicity, are read off them (`TrustRegion.rate_lawful`).

A radius below the largest one grows when the ratio is not low and the interpolated length is beyond the
radius, and in no other case (`TrustRegion.rate_grows`). The interpolated length is the norm of the step
times a factor which is the largest increase where the interpolation has no least value. So growth does
not need a step that reached the boundary: the radius can grow after a step of half its length
(`TrustRegion.halfway_grows`).
-/

set_option autoImplicit false

namespace BoxNewton

open Scalar
open Dialogue (Contract)

namespace TrustRegion

variable {n : Nat} {o : RegionOptions EReal} {region : TrustRegion EReal} {norm : EReal}

/-! ## Floor and ceiling -/

/-- The least radius that an acceptable ratio leaves. -/
noncomputable def radiusFloor (o : RegionOptions EReal) (region : TrustRegion EReal) : EReal :=
  if region.ratio < o.growFrom then o.strongShrink * region.radius else region.radius

/-- The greatest radius that an acceptable ratio allows, unless the floor is above it. -/
noncomputable def radiusCeiling (o : RegionOptions EReal) (region : TrustRegion EReal) : EReal :=
  if region.ratio < o.shrinkBelow then o.mildShrink * region.radius else o.growth * region.radius

/-- After an acceptable ratio, the interpolated length is kept between floor and ceiling. -/
theorem wantedRadius_of_accepts (usable : o.Usable) (accepts : region.Accepts o) (norm : EReal) :
    region.wantedRadius o norm =
      max (region.radiusFloor o) (min (region.interpolation * norm) (region.radiusCeiling o)) := by
  rw [wantedRadius, if_neg (not_lt.2 accepts), radiusFloor, radiusCeiling]
  by_cases low : region.ratio < o.shrinkBelow
  · rw [if_pos low, if_pos (low.trans usable.shrink_lt), if_pos low, larger_eq_max, smaller_eq_min]
  · rw [if_neg low, if_neg low]
    by_cases medium : region.ratio < o.growFrom
    · rw [if_pos medium, if_pos medium, larger_eq_max, smaller_eq_min]
    · rw [if_neg medium, if_neg medium, larger_eq_max, smaller_eq_min]

section Bounds

variable (usable : o.Usable) (positive : 0 < region.radius)
include usable positive

theorem strong_le : o.strongShrink * region.radius ≤ region.radius :=
  LawfulProducts.mul_le_self usable.strong_pos usable.strong_lt_one positive.le

theorem mild_le : o.mildShrink * region.radius ≤ region.radius :=
  LawfulProducts.mul_le_self usable.mild_pos usable.mild_lt positive.le

theorem strong_le_mild : o.strongShrink * region.radius ≤ o.mildShrink * region.radius :=
  mul_le_mul_of_nonneg_right usable.strong_lt.le positive.le

theorem le_growth : region.radius ≤ o.growth * region.radius :=
  (one_mul _).symm.trans_le (mul_le_mul_of_nonneg_right usable.growth_gt.le positive.le)

theorem strong_le_radiusFloor : o.strongShrink * region.radius ≤ region.radiusFloor o := by
  unfold radiusFloor
  split
  · exact le_rfl
  · exact strong_le usable positive

theorem radiusFloor_le : region.radiusFloor o ≤ region.radius := by
  unfold radiusFloor
  split
  · exact strong_le usable positive
  · exact le_rfl

theorem radiusCeiling_le : region.radiusCeiling o ≤ o.growth * region.radius := by
  unfold radiusCeiling
  split
  · exact (mild_le usable positive).trans (le_growth usable positive)
  · exact le_rfl

theorem radiusFloor_monotone {r r' : EReal} (less : r ≤ r') :
    radiusFloor o { region with ratio := r } ≤ radiusFloor o { region with ratio := r' } := by
  unfold radiusFloor
  dsimp only
  by_cases medium : r' < o.growFrom
  · rw [if_pos (less.trans_lt medium), if_pos medium]
  · rw [if_neg medium]
    have below : radiusFloor o { region with ratio := r } ≤ region.radius :=
      radiusFloor_le usable positive
    exact below

theorem radiusCeiling_monotone {r r' : EReal} (less : r ≤ r') :
    radiusCeiling o { region with ratio := r } ≤ radiusCeiling o { region with ratio := r' } := by
  unfold radiusCeiling
  dsimp only
  by_cases low : r' < o.shrinkBelow
  · rw [if_pos (less.trans_lt low), if_pos low]
  · rw [if_neg low]
    have below : radiusCeiling o { region with ratio := r } ≤ o.growth * region.radius :=
      radiusCeiling_le usable positive
    exact below

/-- **After an acceptable ratio** the interpolated length is kept between floor and ceiling, up to the
largest radius. That is positive, so the update does not fall back. -/
theorem update_of_accepts (accepts : region.Accepts o) (norm : EReal) :
    (region.update o norm).radius = min (max (region.radiusFloor o)
      (min (region.interpolation * norm) (region.radiusCeiling o))) o.largestRadius := by
  have wanted := wantedRadius_of_accepts usable accepts norm
  rcases update_cases o region norm with ⟨-, same⟩ | ⟨vanishes, -⟩
  · rw [same, smaller_eq_min, wanted]
  · rw [smaller_eq_min, wanted] at vanishes
    have strong : 0 < o.strongShrink * region.radius := EReal.mul_pos usable.strong_pos positive
    refine absurd (lt_min (lt_max_of_lt_left ?_) usable.largest_pos) vanishes
    exact strong.trans_le (strong_le_radiusFloor usable positive)

/-! ## The bounds on the new radius -/

theorem strong_le_update (below : region.radius ≤ o.largestRadius) (accepts : region.Accepts o)
    (norm : EReal) :
    o.strongShrink * region.radius ≤ (region.update o norm).radius := by
  rw [update_of_accepts usable positive accepts]
  refine le_min (le_max_of_le_left (strong_le_radiusFloor usable positive)) ?_
  exact (strong_le usable positive).trans below

theorem update_le_mild (low : region.ratio < o.shrinkBelow) (norm : EReal) :
    (region.update o norm).radius ≤ o.mildShrink * region.radius := by
  by_cases accepts : region.Accepts o
  · rw [update_of_accepts usable positive accepts]
    have floor : region.radiusFloor o = o.strongShrink * region.radius :=
      if_pos (low.trans usable.shrink_lt)
    have ceiling : region.radiusCeiling o = o.mildShrink * region.radius := if_pos low
    refine min_le_of_left_le (max_le ?_ ?_)
    · rw [floor]
      exact strong_le_mild usable positive
    · rw [ceiling]
      exact min_le_right _ _
  · exact update_shrinks usable positive.le (not_le.1 accepts) norm

theorem le_update (below : region.radius ≤ o.largestRadius) (high : o.growFrom ≤ region.ratio)
    (norm : EReal) :
    region.radius ≤ (region.update o norm).radius := by
  have accepts : region.Accepts o := usable.accept_le.trans (usable.shrink_lt.le.trans high)
  have floor : region.radiusFloor o = region.radius := if_neg (not_lt.2 high)
  rw [update_of_accepts usable positive accepts, floor]
  exact le_min (le_max_left _ _) below

theorem update_le_growth (norm : EReal) :
    (region.update o norm).radius ≤ o.growth * region.radius := by
  by_cases accepts : region.Accepts o
  · rw [update_of_accepts usable positive accepts]
    refine min_le_of_left_le (max_le ?_ (min_le_of_right_le (radiusCeiling_le usable positive)))
    exact (radiusFloor_le usable positive).trans (le_growth usable positive)
  · have shrinks := update_shrinks usable positive.le (not_le.1 accepts) norm
    exact (shrinks.trans (mild_le usable positive)).trans (le_growth usable positive)

theorem update_monotone {r r' : EReal} (accepted : o.acceptFrom ≤ r) (less : r ≤ r')
    (norm : EReal) : (update o { region with ratio := r } norm).radius ≤
      (update o { region with ratio := r' } norm).radius := by
  have updated : ∀ r, o.acceptFrom ≤ r → (update o { region with ratio := r } norm).radius =
      min (max (radiusFloor o { region with ratio := r }) (min (region.interpolation * norm)
        (radiusCeiling o { region with ratio := r }))) o.largestRadius := by
    intro r accepted
    have positive : 0 < ({ region with ratio := r } : TrustRegion EReal).radius := positive
    exact update_of_accepts usable positive accepted norm
  rw [updated r accepted, updated r' (accepted.trans less)]
  refine min_le_min_right _ (max_le_max (radiusFloor_monotone usable positive less) ?_)
  exact min_le_min_left _ (radiusCeiling_monotone usable positive less)

/-- **Growth.** The radius grows when the ratio is not low and neither the interpolated length nor the
largest radius is in the way. -/
theorem lt_update_iff (norm : EReal) : region.radius < (region.update o norm).radius ↔
    o.shrinkBelow ≤ region.ratio ∧ region.radius < region.interpolation * norm ∧
      region.radius < o.largestRadius := by
  constructor
  · intro grows
    have high : o.shrinkBelow ≤ region.ratio := by
      by_contra low
      have shrinks := update_le_mild usable positive (not_le.1 low) norm
      exact absurd (shrinks.trans (mild_le usable positive)) (not_le.2 grows)
    rw [update_of_accepts usable positive (usable.accept_le.trans high), lt_min_iff,
      lt_max_iff] at grows
    obtain ⟨aboveFloor | interpolated, room⟩ := grows
    · exact absurd (radiusFloor_le usable positive) (not_le.2 aboveFloor)
    · exact ⟨high, (lt_min_iff.1 interpolated).1, room⟩
  · rintro ⟨high, interpolated, room⟩
    have ceiling : region.radiusCeiling o = o.growth * region.radius := if_neg (not_lt.2 high)
    have grown : region.radius < o.growth * region.radius := by
      rw [← EReal.div_lt_iff positive room.ne_top,
        EReal.div_self positive.ne_bot room.ne_top positive.ne']
      exact usable.growth_gt
    rw [update_of_accepts usable positive (usable.accept_le.trans high), ceiling]
    exact lt_min (lt_max_of_lt_right (lt_min interpolated grown)) room

end Bounds

/-! ## Updates after a judgement -/

/-- What an update does to the radius. -/
structure LawfulUpdate (o : RegionOptions EReal) (region : TrustRegion EReal) (norm : EReal) : Prop where
  low : region.ratio < o.shrinkBelow →
    (region.update o norm).radius ≤ o.mildShrink * region.radius
  accepted : o.acceptFrom ≤ region.ratio →
    o.strongShrink * region.radius ≤ (region.update o norm).radius
  high : o.growFrom ≤ region.ratio → region.radius ≤ (region.update o norm).radius
  bounded : (region.update o norm).radius ≤ o.growth * region.radius
  grows : region.radius < (region.update o norm).radius →
    o.shrinkBelow ≤ region.ratio ∧ region.radius < region.interpolation * norm
  /-- A better ratio leaves no smaller radius, if both ratios are acceptable. -/
  monotone : ∀ r r', o.acceptFrom ≤ r → r ≤ r' → (update o { region with ratio := r } norm).radius ≤
    (update o { region with ratio := r' } norm).radius

theorem update_lawful (usable : o.Usable) (positive : 0 < region.radius)
    (below : region.radius ≤ o.largestRadius) (norm : EReal) : region.LawfulUpdate o norm where
  low low := update_le_mild usable positive low norm
  accepted accepts := strong_le_update usable positive below accepts norm
  high high := le_update usable positive below high norm
  bounded := update_le_growth usable positive norm
  grows grows :=
    have ⟨high, interpolated, _⟩ := (lt_update_iff usable positive norm).1 grows
    ⟨high, interpolated⟩
  monotone _ _ accepted less := update_monotone usable positive accepted less norm

section Judgements

variable {t : Trial EReal} {step : Vec EReal n} {known : Vec EReal n → Prop} {rating : Rating EReal n}

/-- The interpolation is the one of the trial, unless the value at the trial point is infinite; then the
ratio is as low as can be. -/
theorem Rates.interpolation (rates : Rates o region t step known (some rating)) :
    rating.region.interpolation = t.interpolated o ∨ rating.region.ratio = ⊥ := by
  cases rates with
  | infinite => exact .inr rfl
  | estimated => exact .inl rfl
  | measured => exact .inl rfl

/-- **The update law.** With options in their ranges and a radius that is positive and not above the
largest one, every judgement that comes to a ratio leaves a region whose update, for a step of any norm,
is lawful: it decreases the radius after a low ratio, keeps most of it after an acceptable ratio and all
of it after a high one, and increases it by no more than the largest increase. -/
theorem rate_lawful (usable : o.fault? = none) (positive : 0 < region.radius)
    (below : region.radius ≤ o.largestRadius) (t : Trial EReal) (step : Vec EReal n) :
    (region.rate o t step).Keeps .free
      (fun rated _ => ∀ rating ∈ rated, rating.region.radius = region.radius ∧
        ∀ norm, rating.region.LawfulUpdate o norm) () := by
  rw [RegionOptions.fault?_eq_none] at usable
  refine (rate_keeps o region t step fun _ => True).mono ?_
  rintro _ _ rates rating rfl
  have radius := rates.radius
  rw [← radius] at positive below
  exact ⟨radius, update_lawful usable positive below⟩

/-- **Growth.** With options in their ranges and a radius that is positive and not above the largest one,
every judgement that comes to a ratio lets the radius grow when the ratio is not low, the interpolated
length is beyond the radius and the radius is not the largest one, and in no other case. A high ratio
keeps the radius when the interpolated length is not beyond it. -/
theorem rate_grows (usable : o.fault? = none) (positive : 0 < region.radius)
    (below : region.radius ≤ o.largestRadius) (t : Trial EReal) (step : Vec EReal n) :
    (region.rate o t step).Keeps .free
      (fun rated _ => ∀ rating ∈ rated, ∀ norm,
        (region.radius < (rating.region.update o norm).radius ↔
          o.shrinkBelow ≤ rating.region.ratio ∧ region.radius < t.interpolated o * norm ∧
            region.radius < o.largestRadius) ∧
        (o.growFrom ≤ rating.region.ratio → t.interpolated o * norm ≤ region.radius →
          (rating.region.update o norm).radius = region.radius)) () := by
  rw [RegionOptions.fault?_eq_none] at usable
  refine (rate_keeps o region t step fun _ => True).mono ?_
  rintro _ _ rates rating rfl norm
  have radius := rates.radius
  rw [← radius] at positive below
  have grows : region.radius < (rating.region.update o norm).radius ↔
      o.shrinkBelow ≤ rating.region.ratio ∧ region.radius < t.interpolated o * norm ∧
        region.radius < o.largestRadius := by
    have iff := lt_update_iff usable positive norm
    rcases rates.interpolation with same | least
    · rwa [same, radius] at iff
    · have low : ¬ o.shrinkBelow ≤ rating.region.ratio := by
        rw [least, not_le]
        exact bot_le.trans_lt (usable.accept_pos.trans_le usable.accept_le)
      rw [← radius]
      exact ⟨fun grown => absurd (iff.1 grown).1 low, fun high => absurd high.1 low⟩
  refine ⟨grows, fun high interpolated => le_antisymm ?_ ?_⟩
  · exact not_lt.1 fun grown => absurd (grows.1 grown).2.1 (not_lt.2 interpolated)
  · exact radius.symm.trans_le (le_update usable positive below high norm)

end Judgements

/-! ## A step of half the radius -/

section Halfway

/-- A region of radius four. -/
noncomputable def wideRegion : TrustRegion EReal := { initial with radius := 4.0 }

/-- A step of length two along which the objective `-x²/2 - x` is judged by the model of `x²/2` at one.
The objective falls by more than its slope says, so no interpolation has a least value. -/
noncomputable def steepTrial : Trial EReal where
  before := ((-1.5 : ℝ) : EReal)
  after := ((-7.5 : ℝ) : EReal)
  model := ((-2.0 : ℝ) : EReal)
  slope := ((-4.0 : ℝ) : EReal)

noncomputable def steepStep : Vec EReal 1 := Vec.ofReal fun _ => 2.0

theorem wideRegion_pos : 0 < wideRegion.radius := by
  change (0 : EReal) < 4.0
  rw [ofScientific_eq, EReal.coe_pos]
  norm_num

theorem wideRegion_lt : wideRegion.radius < RegionOptions.standard.largestRadius := by
  change (4.0 : EReal) < 1 / sqrtEpsilon
  rw [ofScientific_eq, sqrtEpsilon_eq, ← EReal.coe_one, ← EReal.coe_div, EReal.coe_lt_coe_iff]
  norm_num

theorem steepTrial_predicted :
    steepTrial.predicted = ((-2.0 - Trial.realShift (-1.5) : ℝ) : EReal) := by
  rw [Trial.predicted, Trial.shift_coe rfl, EReal.coe_sub]
  rfl

/-- The change of the objective is measured. -/
theorem steepTrial_rated : (wideRegion.rate .standard steepTrial steepStep).eval
      (fun _ => Vec.zeros 1) =
    some (some ⟨wideRegion.judged .standard steepTrial steepTrial.actual, none⟩) := by
  have descends : steepTrial.predicted < 0 := by
    rw [steepTrial_predicted, EReal.coe_neg']
    norm_num [Trial.realShift]
  have finite : IsFinite steepTrial.after := isFinite_coe _
  have far : ¬ steepTrial.IsNearRoundoff := by
    rw [Trial.IsNearRoundoff, Trial.actual_coe rfl rfl, Trial.roundoff_coe]
    change ¬ (abs ((-2.0 : ℝ) : EReal) < _ ∨ _ < _ * abs ((-1.5 : ℝ) : EReal))
    simp only [abs_coe, ← EReal.coe_mul, EReal.coe_lt_coe_iff]
    norm_num [Trial.realShift, abs_of_neg]
  rw [rate, if_neg (not_not.2 descends), if_neg (not_not.2 finite), if_neg far]
  rfl

theorem steepTrial_ratio :
    RegionOptions.standard.growFrom ≤ steepTrial.actual / steepTrial.predicted := by
  change (0.75 : EReal) ≤ _
  rw [Trial.actual_coe rfl rfl, steepTrial_predicted, ← EReal.coe_div, ofScientific_eq,
    EReal.coe_le_coe_iff]
  norm_num [Trial.realShift]

theorem steepTrial_interpolated : steepTrial.interpolated .standard = 4.0 := by
  have concave : steepTrial.after - steepTrial.before - steepTrial.slope ≤ 0 := by
    change ((-7.5 : ℝ) : EReal) - ((-1.5 : ℝ) : EReal) - ((-4.0 : ℝ) : EReal) ≤ 0
    rw [← EReal.coe_sub, ← EReal.coe_sub, ← EReal.coe_zero, EReal.coe_le_coe_iff]
    norm_num
  rw [Trial.interpolated, if_pos concave]
  rfl

theorem steepStep_norm : steepStep.norm = 2.0 := by
  have square : (fun _ : Fin 1 => (2.0 : ℝ)) ⬝ᵥ (fun _ => 2.0) = 2.0 * 2.0 := by
    simp [dotProduct]
  rw [steepStep, Vec.norm_ofReal, square, Real.sqrt_mul_self (by norm_num)]
  rfl

/-- **A step inside the region lets the radius grow.** -/
theorem halfway_grows : (RegionOptions.standard : RegionOptions EReal).fault? = none ∧
    steepStep.norm < wideRegion.radius ∧
    ¬ (wideRegion.rate .standard steepTrial steepStep).Keeps .free
      (fun rated _ => ∀ rating ∈ rated,
        (rating.region.update .standard steepStep.norm).radius ≤ wideRegion.radius) () := by
  have usable := RegionOptions.standard_usable
  have inside : (2.0 : EReal) < wideRegion.radius := by
    change (2.0 : EReal) < 4.0
    rw [ofScientific_eq, ofScientific_eq, EReal.coe_lt_coe_iff]
    norm_num
  rw [steepStep_norm]
  refine ⟨RegionOptions.fault?_eq_none.2 usable, inside, fun stays => ?_⟩
  obtain ⟨_, stays⟩ := stays.eval (fun _ _ => trivial) steepTrial_rated
  have beyond : wideRegion.radius < steepTrial.interpolated .standard * 2.0 := by
    rw [steepTrial_interpolated]
    change (4.0 : EReal) < 4.0 * 2.0
    rw [ofScientific_eq, ofScientific_eq, ← EReal.coe_mul, EReal.coe_lt_coe_iff]
    norm_num
  have high := usable.shrink_lt.le.trans steepTrial_ratio
  have positive : 0 < (wideRegion.judged .standard steepTrial steepTrial.actual).radius := wideRegion_pos
  have grows := (lt_update_iff usable positive 2.0).2 ⟨high, beyond, wideRegion_lt⟩
  exact absurd (stays _ rfl) (not_le.2 grows)

/-- The judgement of this step is followed by lawful updates. -/
theorem rate_lawful_halfway : (RegionOptions.standard : RegionOptions EReal).fault? = none ∧
    0 < wideRegion.radius ∧ wideRegion.radius ≤ RegionOptions.standard.largestRadius ∧
    (wideRegion.rate .standard steepTrial steepStep).Keeps .free
      (fun rated _ => ∀ rating ∈ rated, rating.region.radius = wideRegion.radius ∧
        ∀ norm, rating.region.LawfulUpdate .standard norm) () := by
  have usable : (RegionOptions.standard : RegionOptions EReal).fault? = none :=
    RegionOptions.fault?_eq_none.2 RegionOptions.standard_usable
  exact ⟨usable, wideRegion_pos, wideRegion_lt.le,
    rate_lawful usable wideRegion_pos wideRegion_lt.le steepTrial steepStep⟩

/-- After this step the radius grows as described. -/
theorem rate_grows_halfway : (RegionOptions.standard : RegionOptions EReal).fault? = none ∧
    0 < wideRegion.radius ∧ wideRegion.radius ≤ RegionOptions.standard.largestRadius ∧
    (wideRegion.rate .standard steepTrial steepStep).Keeps .free
      (fun rated _ => ∀ rating ∈ rated, ∀ norm,
        (wideRegion.radius < (rating.region.update .standard norm).radius ↔
          RegionOptions.standard.shrinkBelow ≤ rating.region.ratio ∧
            wideRegion.radius < steepTrial.interpolated .standard * norm ∧
              wideRegion.radius < RegionOptions.standard.largestRadius) ∧
        (RegionOptions.standard.growFrom ≤ rating.region.ratio →
          steepTrial.interpolated .standard * norm ≤ wideRegion.radius →
            (rating.region.update .standard norm).radius = wideRegion.radius)) () := by
  have usable : (RegionOptions.standard : RegionOptions EReal).fault? = none :=
    RegionOptions.fault?_eq_none.2 RegionOptions.standard_usable
  exact ⟨usable, wideRegion_pos, wideRegion_lt.le,
    rate_grows usable wideRegion_pos wideRegion_lt.le steepTrial steepStep⟩

end Halfway

end TrustRegion

end BoxNewton

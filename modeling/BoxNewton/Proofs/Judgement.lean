import Mathlib
import BoxNewton.Proofs.Contract

/-!
# How a step is judged

A judgement ends in one of four ways (`TrustRegion.Rates`). It is refused when the model predicts no
decrease. Otherwise the value at the trial point is infinite, or the reduction is estimated from the
gradient there, or it is the measured one. This is all that the region remembers of a step: the radius
is untouched until it is revised (`TrustRegion.revised`), which leaves the ratio alone.
-/

set_option autoImplicit false

namespace BoxNewton

variable {α : Type} [Scalar α] {n : Nat}

namespace TrustRegion

variable {o : RegionOptions α} {region : TrustRegion α} {t : Trial α} {step : Vec α n}
  {known : Vec α n → Prop}

/-- The ways in which a step is judged, when a gradient at the trial point is one that is known. -/
inductive Rates (o : RegionOptions α) (region : TrustRegion α) (t : Trial α) (step : Vec α n)
    (known : Vec α n → Prop) : Option (Rating α n) → Prop where
  | refused (flat : ¬ t.predicted < 0) : Rates o region t step known none
  | infinite (descends : t.predicted < 0) (value : ¬ Scalar.IsFinite t.after) :
      Rates o region t step known (some
        { region := { region with ratio := -Scalar.infinity, interpolation := o.strongShrink }
          gradient := none })
  | estimated (descends : t.predicted < 0) (value : Scalar.IsFinite t.after)
      (near : t.IsNearRoundoff) (g : Vec α n) (answered : known g) :
      Rates o region t step known (some
        { region := region.judged o t (t.estimated (g.dot step)), gradient := some g })
  | measured (descends : t.predicted < 0) (value : Scalar.IsFinite t.after)
      (far : ¬ t.IsNearRoundoff) :
      Rates o region t step known (some
        { region := region.judged o t t.actual, gradient := none })

theorem rate_keeps (o : RegionOptions α) (region : TrustRegion α) (t : Trial α) (step : Vec α n)
    (known : Vec α n → Prop) :
    (region.rate o t step).Keeps (.relying fun _ g => known g)
      (fun rated _ => Rates o region t step known rated) () := by
  unfold rate
  split
  · rename_i flat
    exact .refused flat
  · rename_i descends
    rw [Decidable.not_not] at descends
    split
    · rename_i value
      exact .infinite descends value
    · rename_i value
      rw [Decidable.not_not] at value
      split
      · rename_i near
        exact ⟨trivial, fun g answered => .estimated descends value near g answered⟩
      · rename_i far
        exact .measured descends value far

/-- A gradient that comes out of a judgement is known. -/
theorem Rates.gradient {rating : Rating α n} (rates : Rates o region t step known (some rating)) :
    ∀ g ∈ rating.gradient, known g := by
  intro g here
  cases rates with
  | infinite => cases here
  | estimated descends value near g' answered =>
      cases here
      exact answered
  | measured => cases here

theorem Rates.radius {rating : Rating α n} (rates : Rates o region t step known (some rating)) :
    rating.region.radius = region.radius := by
  cases rates <;> rfl

theorem Rates.startRadius {rating : Rating α n}
    (rates : Rates o region t step known (some rating)) :
    rating.region.startRadius = region.startRadius := by
  cases rates <;> rfl

/-! ## The radius after a step -/

/-- Until a step is accepted, the radius is limited by the norm of the step. -/
def limited (region : TrustRegion α) (first : Bool) (norm : α) : TrustRegion α :=
  if first then region.limitBy norm else region

/-- The region after a step of the given norm. -/
def revised (o : RegionOptions α) (region : TrustRegion α) (first : Bool) (norm : α) :
    TrustRegion α :=
  (region.limited first norm).update o norm

/-- How a radius is limited depends on the radius alone. -/
theorem limited_congr {region' : TrustRegion α} (same : region.radius = region'.radius) (first : Bool)
    (norm : α) : (region.limited first norm).radius = (region'.limited first norm).radius := by
  cases first with
  | false => exact same
  | true =>
      simp only [limited, limitBy, if_true, same]
      split
      · rfl
      · exact same

@[simp] theorem limitBy_ratio (region : TrustRegion α) (norm : α) :
    (region.limitBy norm).ratio = region.ratio := by
  unfold limitBy
  split <;> rfl

@[simp] theorem update_ratio (o : RegionOptions α) (region : TrustRegion α) (norm : α) :
    (region.update o norm).ratio = region.ratio := rfl

@[simp] theorem limited_ratio (region : TrustRegion α) (first : Bool) (norm : α) :
    (region.limited first norm).ratio = region.ratio := by
  cases first <;> simp [limited]

@[simp] theorem revised_ratio (o : RegionOptions α) (region : TrustRegion α) (first : Bool)
    (norm : α) : (region.revised o first norm).ratio = region.ratio := by
  simp [revised]

end TrustRegion

end BoxNewton

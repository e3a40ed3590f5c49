import Mathlib
import BoxNewton.Proofs.BenchmarkDerivatives
import BoxNewton.Proofs.SymmetricDirections

/-!
# Differences that are exact

Over exact numbers a difference of the values of an affine function is the step times the slope, whatever the
step, so differences are exact where the function is affine in the variable that they take a step in. The
product of the Hessian by differences is the product with the matrix when the gradient is affine
(`FiniteDifference.product_ofReal`). The gradient of a quadratic by differences is off by half the curvature
along each variable times the step (`FiniteDifference.quotients_quadratic`), and that of an affine function is
exact (`FiniteDifference.quotients_affine`).

The step is not zero (`FiniteDifference.realStep_ne_zero`), and each variable is stepped from the point as it
was: the points at which the value is asked differ from it in one entry each, whatever the scalars are
(`FiniteDifference.gradient_noting`).
-/

set_option autoImplicit false

namespace BoxNewton

open Matrix

variable {n : Nat}

/-! ## Loops over the entries -/

section Loops

variable {m : Type → Type} [Monad m] [LawfulMonad m] {β γ : Type}

/-- Entries that take no effects to find. -/
theorem ofFnM_eq_pure {f : Fin n → m β} {g : Fin n → β} (found : ∀ i, f i = pure (g i)) :
    Vector.ofFnM f = pure (Vector.ofFn g) := by
  rw [funext found, Vector.ofFnM_pure]

/-- A loop of which every round notes down one thing notes them down in order. -/
theorem ofFnM_noting {f : Fin n → StateM (List γ) β} {g : Fin n → β} {thing : Fin n → γ}
    (notes : ∀ i noted, f i noted = (g i, noted ++ [thing i])) (noted : List γ) :
    Vector.ofFnM f noted = (Vector.ofFn g, noted ++ List.ofFn thing) := by
  induction n with
  | zero =>
      rw [Vector.ofFnM_zero, List.ofFn_zero, List.append_nil]
      exact congrArg (·, noted) (Vector.eq_empty).symm
  | succ n ih =>
      have front := ih fun i => notes i.castSucc
      rw [Vector.ofFnM_succ, Vector.ofFn_succ, List.ofFn_succ_last, ← List.append_assoc]
      simp only [bind, StateT.bind, front, notes (Fin.last n)]
      rfl

end Loops

/-! ## Arrays that hold vectors -/

section Arrays

variable {α : Type}

theorem Vec.overwrite?_toArray (v out : Vec α n) : Vec.overwrite? v out.toArray = .ok v.toArray := by
  simp [overwrite?]

variable [Scalar α]

theorem Vec.norm_toArray (v : Vec α n) : Vec.norm v.toArray.toVector = v.norm := by
  obtain ⟨entries, rfl⟩ := v
  rfl

namespace Objective

theorem forwardGradient_toArray (value : Array α → Except Misfit α) (x : Vec α n) (fx : α) (out : Vec α n)
    (side : Nat → α) :
    forwardGradient value x.toArray fx out.toArray side =
      Vector.toArray <$> FiniteDifference.gradient (fun y : Vec α n => value y.toArray) x fx
        fun i => side i.val := by
  obtain ⟨entries, rfl⟩ := x
  unfold forwardGradient
  simp only [Vec.overwrite?_toArray]
  rfl

theorem forwardProduct_toArray (relative : α) (gradient : Array α → Array α → Except Misfit (Array α))
    (x v out : Vec α n) :
    forwardProduct relative gradient x.toArray v.toArray out.toArray =
      Vector.toArray <$> FiniteDifference.product relative
        (fun y out : Vec α n => do Vec.ofArray? n (← gradient y.toArray out.toArray)) x v := by
  unfold forwardProduct
  rw [Vec.norm_toArray]
  by_cases zero : Scalar.Agree v.norm 0
  · rw [if_pos zero, FiniteDifference.product, if_pos zero, Array.map_const', Vector.size_toArray,
      ← Vector.toArray_replicate]
    rfl
  · rw [if_neg zero]
    obtain ⟨entries, rfl⟩ := x
    simp only [Vec.ofArray?_toArray, Vec.overwrite?_toArray]
    rfl

end Objective

end Arrays

namespace FiniteDifference

/-! ## Products -/

section Products

variable {m : Type → Type} [Monad m] [LawfulMonad m]

theorem productStep_ofReal (relative : ℝ) (x v : Fin n → ℝ) :
    productStep (relative : EReal) (Vec.ofReal x) (Vec.ofReal v) =
      ((relative * (1 + √(x ⬝ᵥ x)) / √(v ⬝ᵥ v) : ℝ) : EReal) := by
  unfold productStep
  rw [Vec.norm_ofReal, Vec.norm_ofReal, EReal.coe_div, EReal.coe_mul, EReal.coe_add, EReal.coe_one]

theorem norm_agrees_zero_iff (v : Fin n → ℝ) : Scalar.Agree (Vec.ofReal v).norm 0 ↔ v = 0 := by
  rw [Scalar.agree_iff, Vec.norm_ofReal, EReal.coe_eq_zero, sqrt_dot_self_eq_zero]

/-- **Differences of an affine gradient are products with its matrix**, also with the zero vector. The
gradient is only ever asked to write over zeros. -/
theorem product_ofReal {relative : ℝ} (moves : relative ≠ 0)
    {gradient : (x out : Vec EReal n) → m (Vec EReal n)} {H : Matrix (Fin n) (Fin n) ℝ} {c : Fin n → ℝ}
    (affine : ∀ y, gradient (Vec.ofReal y) (Vec.zeros n) = pure (Vec.ofReal (H *ᵥ y + c)))
    (x v : Fin n → ℝ) :
    product (relative : EReal) gradient (Vec.ofReal x) (Vec.ofReal v) = pure (Vec.ofReal (H *ᵥ v)) := by
  unfold product
  by_cases zero : v = 0
  · rw [if_pos ((norm_agrees_zero_iff v).2 zero), zero, mulVec_zero, Vec.zeros_eq_ofReal]
  · rw [if_neg fun agrees => zero ((norm_agrees_zero_iff v).1 agrees), productStep_ofReal]
    set step := relative * (1 + √(x ⬝ᵥ x)) / √(v ⬝ᵥ v)
    have moved : step ≠ 0 := by
      have far : 1 + √(x ⬝ᵥ x) ≠ 0 := (add_pos_of_pos_of_nonneg one_pos (Real.sqrt_nonneg _)).ne'
      have long : √(v ⬝ᵥ v) ≠ 0 := fun vanishes => zero (sqrt_dot_self_eq_zero.1 vanishes)
      exact div_ne_zero (mul_ne_zero moves far) long
    have difference : step⁻¹ • ((H *ᵥ (x + step • v) + c) - (H *ᵥ x + c)) = H *ᵥ v := by
      rw [mulVec_add, mulVec_smul, add_right_comm, add_sub_cancel_left, inv_smul_smul₀ moved]
    simp only [Vec.addScaled_ofReal, affine, pure_bind, Vec.sub_ofReal, Vec.divideBy_ofReal, difference]

end Products

/-! ## Gradients -/

/-- The step for a real variable: it grows with the variable from one on, and has its sign. -/
noncomputable def realStep (a : ℝ) : ℝ :=
  (Scalar.sqrtEpsilon : EReal).toReal * max |a| 1 * if a < 0 then -1 else 1

theorem realStep_ne_zero (a : ℝ) : realStep a ≠ 0 := by
  have wide : max |a| 1 ≠ 0 := (zero_lt_one.trans_le (le_max_right _ _)).ne'
  have sign : (if a < 0 then -1 else 1 : ℝ) ≠ 0 := by split <;> norm_num
  have relative : (Scalar.sqrtEpsilon : EReal).toReal ≠ 0 := by
    rw [Scalar.sqrtEpsilon_eq, EReal.toReal_coe]
    norm_num
  exact mul_ne_zero (mul_ne_zero relative wide) sign

theorem unitLike_coe (side : EReal) (a : ℝ) :
    Scalar.unitLike side (a : EReal) = ((if a < 0 then -1 else 1 : ℝ) : EReal) := by
  have negative : (a : EReal) < 0 ∨ 1 / (a : EReal) < 0 ↔ a < 0 := by
    rw [← EReal.coe_one, ← EReal.coe_div, EReal.coe_neg', EReal.coe_neg', one_div_neg, or_self]
  unfold Scalar.unitLike
  rw [if_pos (Scalar.isNumber _)]
  split_ifs with left right right
  · rfl
  · exact absurd (negative.1 left) right
  · exact absurd (negative.2 right) left
  · rfl

theorem gradientStep_coe (side : EReal) (a : ℝ) : gradientStep side (a : EReal) = realStep a := by
  have wide : Scalar.larger (Scalar.abs (a : EReal)) 1 = ((max |a| 1 : ℝ) : EReal) := by
    rw [Scalar.abs_coe, Scalar.larger_eq_max, ← EReal.coe_one]
    exact (EReal.coe_strictMono.monotone.map_max).symm
  have relative : (Scalar.sqrtEpsilon : EReal) = ((Scalar.sqrtEpsilon : EReal).toReal : EReal) := by
    rw [Scalar.sqrtEpsilon_eq, EReal.toReal_coe]
  have step : Scalar.sqrtEpsilon * Scalar.larger (Scalar.abs (a : EReal)) 1 *
      Scalar.unitLike side (a : EReal) = realStep a := by
    rw [wide, unitLike_coe, relative, ← EReal.coe_mul, ← EReal.coe_mul]
    rfl
  have moves : ¬ Scalar.Agree ((realStep a : ℝ) : EReal) 0 := by
    rw [Scalar.agree_iff, EReal.coe_eq_zero]
    exact realStep_ne_zero a
  unfold gradientStep
  rw [step, if_neg moves]

section Gradients

variable {m : Type → Type} [Monad m] [LawfulMonad m]

/-- The difference quotients of a function at a real point. -/
noncomputable def quotients (f : (Fin n → ℝ) → ℝ) (x : Fin n → ℝ) (i : Fin n) : ℝ :=
  (f (x + realStep (x i) • Pi.single i 1) - f x) / realStep (x i)

/-- The point with one variable stepped. -/
theorem set_ofReal (x : Fin n → ℝ) (i : Fin n) (t : ℝ) :
    Vector.set (Vec.ofReal x) i.val ((x i : EReal) + (t : EReal)) i.isLt =
      Vec.ofReal (x + t • Pi.single i 1) := by
  apply Vec.ext_get
  intro j
  rw [Vec.get_set]
  by_cases same : i = j
  · subst same
    simp
  · simp [same, Ne.symm same]

theorem gradient_ofReal {value : Vec EReal n → m EReal} {f : (Fin n → ℝ) → ℝ}
    (known : ∀ y, value (Vec.ofReal y) = pure (f y : EReal)) (x : Fin n → ℝ) (side : Fin n → EReal) :
    gradient value (Vec.ofReal x) (f x : EReal) side = pure (Vec.ofReal (quotients f x)) := by
  refine ofFnM_eq_pure fun i => ?_
  simp only [Vec.get_ofReal, gradientStep_coe, set_ofReal, known, pure_bind, quotients, EReal.coe_div,
    EReal.coe_sub]

/-- The quotient of a parabola is its slope and a part of its curvature. -/
theorem quotients_of_parabola {f : (Fin n → ℝ) → ℝ} {x : Fin n → ℝ} {i : Fin n} {slope curvature : ℝ}
    (parabola : ∀ t : ℝ, f (x + t • Pi.single i 1) = f x + t * slope + t * t * curvature) :
    quotients f x i = slope + curvature * realStep (x i) := by
  rw [quotients, parabola]
  have moved := realStep_ne_zero (x i)
  field_simp
  ring

theorem quotients_quadratic {H : Matrix (Fin n) (Fin n) ℝ} (symmetric : H.IsSymm) (b : Fin n → ℝ) (c₀ : ℝ)
    (x : Fin n → ℝ) (i : Fin n) :
    quotients (fun y => Quadratic.realValue H b y + c₀) x i =
      (H *ᵥ x + b) i + 1 / 2 * H i i * realStep (x i) := by
  refine quotients_of_parabola fun t => ?_
  rw [Quadratic.realValue_ray b symmetric, dotProduct_single_one, single_one_dotProduct, mulVec_single_one,
    col_apply]
  norm_num
  ring

theorem quotients_affine (b : Fin n → ℝ) (c₀ : ℝ) (x : Fin n → ℝ) :
    quotients (fun y => b ⬝ᵥ y + c₀) x = b := by
  funext i
  have slope : quotients (fun y => b ⬝ᵥ y + c₀) x i = b i + 0 * realStep (x i) := by
    refine quotients_of_parabola fun t => ?_
    rw [dotProduct_add, dotProduct_smul, dotProduct_single_one, smul_eq_mul]
    ring
  rw [slope, zero_mul, add_zero]

end Gradients

/-! ## The points that are asked about -/

section Points

variable {α : Type} [Scalar α]

/-- Answers with the value at a point and notes the point down. -/
def noting (value : Vec α n → α) (y : Vec α n) : StateM (List (Vec α n)) α :=
  fun noted => (value y, noted ++ [y])

/-- **Each variable is stepped from the point as it was.** -/
theorem gradient_noting (value : Vec α n → α) (x : Vec α n) (fx : α) (side : Fin n → α)
    (noted : List (Vec α n)) :
    (gradient (noting value) x fx side noted).2 =
      noted ++ List.ofFn fun i => x.set i.val (x.get i + gradientStep (side i) (x.get i)) i.isLt :=
  congrArg Prod.snd (ofFnM_noting (fun _ _ => rfl) noted)

end Points

end FiniteDifference

namespace Objective

theorem forwardProduct_ofReal {relative : ℝ} (moves : relative ≠ 0)
    {gradient : Array EReal → Array EReal → Except Misfit (Array EReal)} {H : Matrix (Fin n) (Fin n) ℝ}
    {c : Fin n → ℝ}
    (affine : ∀ y, gradient (Vec.ofReal y).toArray (Vec.zeros n).toArray =
      .ok (Vec.ofReal (H *ᵥ y + c)).toArray)
    (x v : Fin n → ℝ) (out : Vec EReal n) :
    forwardProduct (relative : EReal) gradient (Vec.ofReal x).toArray (Vec.ofReal v).toArray out.toArray =
      .ok (Vec.ofReal (H *ᵥ v)).toArray := by
  have read (y : Fin n → ℝ) : (do Vec.ofArray? n (← gradient (Vec.ofReal y).toArray (Vec.zeros n).toArray)) =
      Except.ok (Vec.ofReal (H *ᵥ y + c)) := by
    rw [affine]
    exact Vec.ofArray?_toArray _
  rw [forwardProduct_toArray, FiniteDifference.product_ofReal moves read]
  rfl

theorem forwardGradient_ofReal {value : Array EReal → Except Misfit EReal} {f : (Fin n → ℝ) → ℝ}
    (known : ∀ y, value (Vec.ofReal y).toArray = .ok (f y : EReal)) (x : Fin n → ℝ) (out : Vec EReal n)
    (side : Nat → EReal) :
    forwardGradient value (Vec.ofReal x).toArray (f x : EReal) out.toArray side =
      .ok (Vec.ofReal (FiniteDifference.quotients f x)).toArray := by
  rw [forwardGradient_toArray, FiniteDifference.gradient_ofReal known]
  rfl

/-- **Differences are exact where they should be.** They give the products of an affine gradient, and the
gradients of a quadratic up to half the curvature along each variable times its step, so those of an affine
function. All entries are written over. Every variable is stepped from the point as it was, by a step that
is not zero. -/
theorem forwardDifferences_exact (n : Nat) :
    (∀ (gradient : Array EReal → Array EReal → Except Misfit (Array EReal)) (H : Matrix (Fin n) (Fin n) ℝ)
        (c : Fin n → ℝ),
      (∀ y, gradient (Vec.ofReal y).toArray (Vec.zeros n).toArray =
        .ok (Vec.ofReal (H *ᵥ y + c)).toArray) →
      ∀ (x v : Fin n → ℝ) (out : Vec EReal n),
        forwardProduct Scalar.sqrtEpsilon gradient (Vec.ofReal x).toArray (Vec.ofReal v).toArray out.toArray =
          .ok (Vec.ofReal (H *ᵥ v)).toArray) ∧
    (∀ (value : Array EReal → Except Misfit EReal) (H : Matrix (Fin n) (Fin n) ℝ) (b : Fin n → ℝ) (c₀ : ℝ),
      H.IsSymm →
      (∀ y, value (Vec.ofReal y).toArray = .ok ((Quadratic.realValue H b y + c₀ : ℝ) : EReal)) →
      ∀ (x : Fin n → ℝ) (out : Vec EReal n) (side : Nat → EReal),
        forwardGradient value (Vec.ofReal x).toArray ((Quadratic.realValue H b x + c₀ : ℝ) : EReal)
            out.toArray side =
          .ok (Vec.ofReal fun i =>
            (H *ᵥ x + b) i + 1 / 2 * H i i * FiniteDifference.realStep (x i)).toArray) ∧
    (∀ (value : Array EReal → Except Misfit EReal) (b : Fin n → ℝ) (c₀ : ℝ),
      (∀ y, value (Vec.ofReal y).toArray = .ok ((b ⬝ᵥ y + c₀ : ℝ) : EReal)) →
      ∀ (x : Fin n → ℝ) (out : Vec EReal n) (side : Nat → EReal),
        forwardGradient value (Vec.ofReal x).toArray ((b ⬝ᵥ x + c₀ : ℝ) : EReal) out.toArray side =
          .ok (Vec.ofReal b).toArray) ∧
    (∀ (α : Type) [Scalar α] (value : Vec α n → α) (x : Vec α n) (fx : α) (side : Fin n → α)
        (noted : List (Vec α n)),
      (FiniteDifference.gradient (FiniteDifference.noting value) x fx side noted).2 =
        noted ++ List.ofFn fun i =>
          x.set i.val (x.get i + FiniteDifference.gradientStep (side i) (x.get i)) i.isLt) ∧
    ∀ (side : EReal) (a : ℝ),
      FiniteDifference.gradientStep side (a : EReal) = FiniteDifference.realStep a ∧
        FiniteDifference.realStep a ≠ 0 := by
  refine ⟨fun gradient H c affine => ?products, fun value H b c₀ symmetric known x out side => ?quadratic,
    fun value b c₀ known x out side => ?affine, fun α _ => FiniteDifference.gradient_noting,
    fun side a => ⟨FiniteDifference.gradientStep_coe side a, FiniteDifference.realStep_ne_zero a⟩⟩
  case products =>
    rw [Scalar.sqrtEpsilon_eq]
    exact forwardProduct_ofReal (by norm_num) affine
  case quadratic =>
    rw [forwardGradient_ofReal known, funext (FiniteDifference.quotients_quadratic symmetric b c₀ x)]
  case affine =>
    rw [forwardGradient_ofReal known, FiniteDifference.quotients_affine]

/-- A quadratic and a linear function of two variables. -/
theorem forwardDifferences_exact_mixing :
    forwardProduct Scalar.sqrtEpsilon (Quadratic.ofReal mixing ![1, -1]).objective.gradient
        (Vec.ofReal ![3, -1]).toArray (Vec.ofReal ![1, 2]).toArray #[7, 7] =
      .ok (Vec.ofReal ![3, 1]).toArray ∧
    forwardGradient (Quadratic.ofReal mixing ![1, -1]).objective.value (Vec.ofReal ![3, -1]).toArray
        ((11 / 2 : ℝ) : EReal) #[7, 7] =
      .ok (Vec.ofReal ![3 + 1 / 2 * FiniteDifference.realStep 3, 2]).toArray ∧
    forwardGradient (Linear.objective (Vec.ofReal ![1, -1])).value (Vec.ofReal ![3, -1]).toArray
        ((4 : ℝ) : EReal) #[7, 7] =
      .ok (Vec.ofReal ![1, -1]).toArray := by
  obtain ⟨products, quadratic, affine, -, -⟩ := forwardDifferences_exact 2
  have knows := Quadratic.knowsGradient ![1, -1] mixing_isSymm
  have product := products _ mixing ![1, -1] (fun y => knows.gradient y _) ![3, -1] ![1, 2] #v[7, 7]
  have curved := quadratic _ mixing ![1, -1] 0 mixing_isSymm
    (fun y => by rw [add_zero]; exact knows.value y) ![3, -1] #v[7, 7] fun _ => 1
  have straight := affine _ ![1, -1] 0
    (fun y => by rw [add_zero]; exact (Linear.knowsGradient ![1, -1]).value y) ![3, -1] #v[7, 7] fun _ => 1
  have image : mixing *ᵥ ![1, 2] = ![3, 1] := by
    rw [mixing_mulVec]
    norm_num
  have value : Quadratic.realValue mixing ![1, -1] ![3, -1] + 0 = 11 / 2 := by
    rw [Quadratic.realValue, mixing_mulVec, dot_pair, dot_pair]
    norm_num
  have slopes : (fun i : Fin 2 => (mixing *ᵥ ![3, -1] + ![1, -1] : Fin 2 → ℝ) i +
      1 / 2 * mixing i i * FiniteDifference.realStep ((![3, -1] : Fin 2 → ℝ) i)) =
      ![3 + 1 / 2 * FiniteDifference.realStep 3, 2] := by
    rw [mixing_mulVec, add_pair]
    funext i
    fin_cases i <;> norm_num [mixing]
  have level : ![1, -1] ⬝ᵥ ![3, -1] + 0 = (4 : ℝ) := by
    rw [dot_pair]
    norm_num
  rw [image] at product
  rw [value, slopes] at curved
  rw [level] at straight
  exact ⟨product, curved, straight⟩

end Objective

end BoxNewton

import Mathlib
import BoxNewton.Benchmark
import BoxNewton.Proofs.CurrentPoint
import BoxNewton.Proofs.ExactNumbers

/-!
# The derivatives of the benchmarks

Along a line through a real point, the value of a benchmark and each entry of its gradient are polynomials in
the position on the line. What such a polynomial begins with, its constant and its linear coefficient, is
found by rules for sums and products (`BeginsWith`), so the derivatives that a benchmark hands out can be
compared with the ones that its value has. An objective knows its gradient when the linear coefficient of its
value is the inner product of the gradient with the direction (`Objective.KnowsGradient`), and its Hessian
when the linear coefficients of its gradient are the entries of the product (`Objective.KnowsHessian`).

The Rosenbrock and Powell functions are sums over blocks of variables. One block is differentiated by its own
variables, and the inner product with the gradient is summed block by block (`dot_eq_sum_blocks`), which takes
a dimension that the blocks fill.

All benchmarks know their gradients, and all but the Powell function, whose products are differences of
gradients, know their Hessians (`Benchmark.derivatives_agree`).
-/

set_option autoImplicit false

namespace BoxNewton

open Matrix Polynomial

/-! ## What a polynomial begins with -/

/-- The function is a polynomial that begins with `a + c t`. -/
def BeginsWith (φ : ℝ → ℝ) (a c : ℝ) : Prop :=
  ∃ P : ℝ[X], (∀ t, φ t = P.eval t) ∧ P.coeff 0 = a ∧ P.coeff 1 = c

namespace BeginsWith

variable {φ ψ : ℝ → ℝ} {a b c d : ℝ}

theorem line (a c : ℝ) : BeginsWith (fun t => a + t * c) a c :=
  ⟨C a + X * C c, fun t => by rw [eval_add, eval_mul, eval_C, eval_X, eval_C], by simp, by simp⟩

theorem const (a : ℝ) : BeginsWith (fun _ => a) a 0 :=
  ⟨C a, fun t => by simp, by simp, by simp⟩

theorem add (hφ : BeginsWith φ a c) (hψ : BeginsWith ψ b d) :
    BeginsWith (φ + ψ) (a + b) (c + d) := by
  obtain ⟨P, hP, rfl, rfl⟩ := hφ
  obtain ⟨Q, hQ, rfl, rfl⟩ := hψ
  exact ⟨P + Q, fun t => by rw [Pi.add_apply, hP, hQ, eval_add], coeff_add .., coeff_add ..⟩

theorem sub (hφ : BeginsWith φ a c) (hψ : BeginsWith ψ b d) :
    BeginsWith (φ - ψ) (a - b) (c - d) := by
  obtain ⟨P, hP, rfl, rfl⟩ := hφ
  obtain ⟨Q, hQ, rfl, rfl⟩ := hψ
  exact ⟨P - Q, fun t => by rw [Pi.sub_apply, hP, hQ, eval_sub], coeff_sub .., coeff_sub ..⟩

/-- The product rule. -/
theorem mul (hφ : BeginsWith φ a c) (hψ : BeginsWith ψ b d) :
    BeginsWith (φ * ψ) (a * b) (a * d + c * b) := by
  obtain ⟨P, hP, rfl, rfl⟩ := hφ
  obtain ⟨Q, hQ, rfl, rfl⟩ := hψ
  exact ⟨P * Q, fun t => by rw [Pi.mul_apply, hP, hQ, eval_mul], mul_coeff_zero P Q,
    mul_coeff_one P Q⟩

theorem smul (k : ℝ) (hφ : BeginsWith φ a c) : BeginsWith (k • φ) (k * a) (k * c) := by
  obtain ⟨P, hP, rfl, rfl⟩ := hφ
  exact ⟨k • P, fun t => by rw [Pi.smul_apply, hP, eval_smul], coeff_smul .., coeff_smul ..⟩

theorem sum {ι : Type} (s : Finset ι) {φ : ι → ℝ → ℝ} {a c : ι → ℝ}
    (terms : ∀ i, BeginsWith (φ i) (a i) (c i)) :
    BeginsWith (fun t => ∑ i ∈ s, φ i t) (∑ i ∈ s, a i) (∑ i ∈ s, c i) := by
  choose P hP const linear using terms
  refine ⟨∑ i ∈ s, P i, fun t => ?_, ?_, ?_⟩
  · rw [eval_finsetSum]
    exact Finset.sum_congr rfl fun i _ => hP i t
  · rw [finsetSum_coeff]
    exact Finset.sum_congr rfl fun i _ => const i
  · rw [finsetSum_coeff]
    exact Finset.sum_congr rfl fun i _ => linear i

theorem parabola (a c q : ℝ) : BeginsWith (fun t => a + t * c + t * t * q) a c :=
  ⟨C a + X * C c + X * X * C q, fun t => by simp only [eval_add, eval_mul, eval_C, eval_X], by simp,
    by simp [mul_assoc]⟩

/-- The same function, and the same beginning in another form. -/
theorem congr (hφ : BeginsWith φ a c) (same : ψ = φ) (ha : b = a) (hc : d = c) :
    BeginsWith ψ b d := by
  rwa [same, ha, hc]

end BeginsWith

/-! ## Derivatives that agree -/

namespace Objective

variable {n : Nat}

/-- At real points the objective answers by these functions, whatever the array that it writes into held
before, and along every line the value has the gradient for its slope. -/
structure KnowsGradient (o : Objective EReal) (f : (Fin n → ℝ) → ℝ) (f' : (Fin n → ℝ) → Fin n → ℝ) :
    Prop where
  value : ∀ x, o.value (Vec.ofReal x).toArray = .ok (f x : EReal)
  gradient : ∀ x (out : Vec EReal n),
    o.gradient (Vec.ofReal x).toArray out.toArray = .ok (Vec.ofReal (f' x)).toArray
  slope : ∀ x v, BeginsWith (fun t => f (x + t • v)) (f x) (f' x ⬝ᵥ v)

/-- At real points the objective answers questions for products by this function, whatever the array that it
writes into held before, and along every line the gradient changes by the product with the direction. -/
structure KnowsHessian (o : Objective EReal) (f' : (Fin n → ℝ) → Fin n → ℝ)
    (f'' : (Fin n → ℝ) → (Fin n → ℝ) → Fin n → ℝ) : Prop where
  product : ∀ x v (out : Vec EReal n),
    o.product (Vec.ofReal x).toArray (Vec.ofReal v).toArray out.toArray =
      .ok (Vec.ofReal (f'' x v)).toArray
  slope : ∀ x v i, BeginsWith (fun t => f' (x + t • v) i) (f' x i) (f'' x v i)

/-- The gradients that the objective hands out in dimension `n` are those of its values. -/
def AgreesOnce (o : Objective EReal) (n : Nat) : Prop :=
  ∃ (f : (Fin n → ℝ) → ℝ) (f' : (Fin n → ℝ) → Fin n → ℝ), o.KnowsGradient f f'

/-- So are the products with its Hessian those of its gradients. -/
def AgreesTwice (o : Objective EReal) (n : Nat) : Prop :=
  ∃ (f : (Fin n → ℝ) → ℝ) (f' : (Fin n → ℝ) → Fin n → ℝ)
    (f'' : (Fin n → ℝ) → (Fin n → ℝ) → Fin n → ℝ), o.KnowsGradient f f' ∧ o.KnowsHessian f' f''

end Objective

/-! ## Blocks of variables -/

section Blocks

variable {n : Nat}

/-- The entries of a real vector, and zeros after them. -/
noncomputable def padded (x : Fin n → ℝ) (i : Nat) : ℝ := if h : i < n then x ⟨i, h⟩ else 0

theorem padded_add_smul (x v : Fin n → ℝ) (t : ℝ) : padded (x + t • v) = padded x + t • padded v := by
  funext i
  unfold padded
  split
  · rename_i inside
    simp [inside]
  · rename_i outside
    simp [outside]

theorem readFirst?_ofReal (x : Fin n → ℝ) :
    readFirst? n (Vec.ofReal x).toArray = .ok fun i => (padded x i : EReal) := by
  rw [readFirst?, if_pos (Vector.size_toArray _).ge]
  refine congrArg Except.ok (funext fun i => ?_)
  by_cases inside : i < n
  · simp [padded, inside, Vec.ofReal]
  · simp [padded, inside]

theorem writeFirst?_toArray {α : Type} (f : Nat → α) (out : Vec α n) :
    writeFirst? n f out.toArray = .ok (Vector.ofFn fun i : Fin n => f i).toArray := by
  rw [writeFirst?, if_pos (Vector.size_toArray _).ge]
  refine congrArg Except.ok (Array.ext (by simp) fun i inside _ => ?_)
  have below : i < n := by simpa using inside
  simp [below]

/-- A value that is found from the entries of the point. -/
theorem value_ofReal {f : (Nat → EReal) → EReal} {f' : (Nat → ℝ) → ℝ}
    (found : ∀ x : Nat → ℝ, f (fun i => (x i : EReal)) = f' x) (x : Fin n → ℝ) :
    f <$> readFirst? n (Vec.ofReal x).toArray = .ok (f' (padded x) : EReal) := by
  rw [readFirst?_ofReal, ← found]
  rfl

/-- Entries that are found from those of the point, and all of them written. -/
theorem entries_ofReal {f : (Nat → EReal) → Nat → EReal} {f' : (Nat → ℝ) → Nat → ℝ}
    (found : ∀ (x : Nat → ℝ) i, f (fun i => (x i : EReal)) i = f' x i) (x : Fin n → ℝ)
    (out : Vec EReal n) :
    (do writeFirst? n (f (← readFirst? n (Vec.ofReal x).toArray)) out.toArray) =
      .ok (Vec.ofReal fun i : Fin n => f' (padded x) i).toArray := by
  rw [readFirst?_ofReal]
  change writeFirst? n (f fun i => (padded x i : EReal)) out.toArray = _
  rw [funext (found (padded x)), writeFirst?_toArray]
  rfl

/-- A sum in order is the sum. -/
theorem foldl_coe {step : EReal → Nat → EReal} {term : Nat → ℝ}
    (steps : ∀ (total : ℝ) i, step total i = ((total + term i : ℝ) : EReal)) (m : Nat) :
    (List.range m).foldl step 0 = ((∑ i ∈ Finset.range m, term i : ℝ) : EReal) := by
  induction m with
  | zero => rfl
  | succ m ih =>
      rw [List.range_succ, List.foldl_append, ih, Finset.sum_range_succ]
      exact steps _ m

variable {k : Nat}

/-- The variables of the `j`-th block of `k`. -/
def block (k : Nat) (x : Nat → ℝ) (j r : Nat) : ℝ := x (k * j + r)

/-- The sum of a function over the blocks of `k` among `n` variables. -/
noncomputable def sumOver (k n : Nat) (f : (Nat → ℝ) → ℝ) (x : Nat → ℝ) : ℝ :=
  ∑ j ∈ Finset.range (n / k), f (block k x j)

/-- What a function of a block gives for each of its variables. -/
def blockwise (k : Nat) (g : (Nat → ℝ) → Nat → ℝ) (x : Nat → ℝ) (i : Nat) : ℝ :=
  g (block k x (i / k)) (i % k)

theorem blockwise_block (g : (Nat → ℝ) → Nat → ℝ) (x : Nat → ℝ) (j : Nat) {r : Nat} (inside : r < k) :
    blockwise k g x (k * j + r) = g (block k x j) r := by
  rw [blockwise, Nat.mul_add_mod, Nat.mod_eq_of_lt inside, Nat.mul_add_div (Nat.zero_lt_of_lt inside),
    Nat.div_eq_of_lt inside, Nat.add_zero]

/-- In a dimension that the blocks fill, an inner product is summed block by block. Variables after the last
whole block would have entries of the gradient and no part in the sum. -/
theorem dot_eq_sum_blocks (whole : n % k = 0) (g : (Nat → ℝ) → Nat → ℝ) (x : Nat → ℝ) (v : Fin n → ℝ) :
    (fun i : Fin n => blockwise k g x i) ⬝ᵥ v =
      ∑ j ∈ Finset.range (n / k), ∑ r ∈ Finset.range k, g (block k x j) r * block k (padded v) j r := by
  have filled : k * (n / k) = n := Nat.mul_div_cancel' (Nat.dvd_of_mod_eq_zero whole)
  have all : (fun i : Fin n => blockwise k g x i) ⬝ᵥ v =
      ∑ i ∈ Finset.range (k * (n / k)), blockwise k g x i * padded v i := by
    rw [filled, Finset.sum_range]
    exact Finset.sum_congr rfl fun i _ => by rw [padded, dif_pos i.isLt]
  rw [all, Vec.sum_range_blocks]
  refine Finset.sum_congr rfl fun j _ => Finset.sum_congr rfl fun r inside => ?_
  rw [blockwise_block g x j (Finset.mem_range.1 inside), block]

/-- **A sum over blocks has the slopes of the blocks for its gradient.** -/
theorem sumOver_begins (whole : n % k = 0) {f : (Nat → ℝ) → ℝ} {g : (Nat → ℝ) → Nat → ℝ}
    (begins : ∀ x v : Nat → ℝ,
      BeginsWith (fun t => f (x + t • v)) (f x) (∑ r ∈ Finset.range k, g x r * v r))
    (x v : Fin n → ℝ) :
    BeginsWith (fun t => sumOver k n f (padded (x + t • v))) (sumOver k n f (padded x))
      ((fun i : Fin n => blockwise k g (padded x) i) ⬝ᵥ v) := by
  rw [dot_eq_sum_blocks whole]
  refine (BeginsWith.sum _ fun j => begins (block k (padded x) j) (block k (padded v) j)).congr ?_ rfl rfl
  funext t
  rw [padded_add_smul]
  rfl

theorem blockwise_begins {g : (Nat → ℝ) → Nat → ℝ} {h : (Nat → ℝ) → (Nat → ℝ) → Nat → ℝ}
    (begins : ∀ (x v : Nat → ℝ) r, BeginsWith (fun t => g (x + t • v) r) (g x r) (h x v r))
    (x v : Fin n → ℝ) (i : Nat) :
    BeginsWith (fun t => blockwise k g (padded (x + t • v)) i) (blockwise k g (padded x) i)
      (h (block k (padded x) (i / k)) (block k (padded v) (i / k)) (i % k)) := by
  refine (begins _ _ _).congr ?_ rfl rfl
  funext t
  rw [padded_add_smul]
  rfl

end Blocks

/-! ## The extended Rosenbrock function -/

namespace Rosenbrock

/-- One block over real numbers. -/
noncomputable def realBlock (x : Nat → ℝ) : ℝ :=
  100.0 * ((x 1 - x 0 * x 0) * (x 1 - x 0 * x 0)) + (1 - x 0) * (1 - x 0)

/-- The derivatives of a block by its two variables. -/
noncomputable def realSlope (x : Nat → ℝ) : Nat → ℝ
  | 0 => -400.0 * x 0 * (x 1 - x 0 * x 0) - 2.0 * (1 - x 0)
  | _ => 200.0 * (x 1 - x 0 * x 0)

/-- The product of the second derivatives of a block with a direction. -/
noncomputable def realCurvature (x v : Nat → ℝ) : Nat → ℝ
  | 0 => (1200.0 * x 0 * x 0 - 400.0 * x 1 + 2.0) * v 0 + -400.0 * x 0 * v 1
  | _ => -400.0 * x 0 * v 0 + 200.0 * v 1

theorem realBlock_begins (x v : Nat → ℝ) :
    BeginsWith (fun t => realBlock (x + t • v)) (realBlock x)
      (∑ r ∈ Finset.range 2, realSlope x r * v r) := by
  have along (r : Nat) : BeginsWith (fun t => (x + t • v) r) (x r) (v r) := .line (x r) (v r)
  have valley := (along 1).sub ((along 0).mul (along 0))
  have far := (BeginsWith.const 1).sub (along 0)
  refine (((valley.mul valley).smul 100.0).add (far.mul far)).congr rfl rfl ?_
  simp only [Finset.sum_range_succ, Finset.sum_range_zero, realSlope]
  norm_num
  ring

theorem realSlope_begins (x v : Nat → ℝ) (r : Nat) :
    BeginsWith (fun t => realSlope (x + t • v) r) (realSlope x r) (realCurvature x v r) := by
  have along (r : Nat) : BeginsWith (fun t => (x + t • v) r) (x r) (v r) := .line (x r) (v r)
  have valley := (along 1).sub ((along 0).mul (along 0))
  unfold realSlope realCurvature
  split
  · refine ((((along 0).smul (-400.0)).mul valley).sub
      (((BeginsWith.const 1).sub (along 0)).smul 2.0)).congr rfl rfl ?_
    norm_num
    ring
  · refine (valley.smul 200.0).congr rfl rfl ?_
    norm_num
    ring

variable {n : Nat}

theorem value_coe (x : Nat → ℝ) : value n (fun i => (x i : EReal)) = sumOver 2 n realBlock x := by
  refine foldl_coe (fun total j => ?_) _
  unfold blockValue square realBlock block
  simp only [Scalar.ofScientific_eq, Nat.add_zero]
  norm_cast

theorem gradient_coe (x : Nat → ℝ) (i : Nat) :
    gradient (fun i => (x i : EReal)) i = blockwise 2 realSlope x i := by
  unfold gradient blockwise slope1 slope2
  rcases Nat.mod_two_eq_zero_or_one i with first | second
  · simp only [first, if_true, realSlope, block, Scalar.ofScientific_eq, Nat.add_zero]
    norm_cast
  · simp only [second, Nat.one_ne_zero, if_false, realSlope, block, Scalar.ofScientific_eq, Nat.add_zero]
    norm_cast

theorem product_coe (x v : Nat → ℝ) (i : Nat) :
    product (fun i => (x i : EReal)) (fun i => (v i : EReal)) i =
      realCurvature (block 2 x (i / 2)) (block 2 v (i / 2)) (i % 2) := by
  unfold product
  rcases Nat.mod_two_eq_zero_or_one i with first | second
  · simp only [first, if_true, realCurvature, block, Scalar.ofScientific_eq, Nat.add_zero]
    norm_cast
  · simp only [second, Nat.one_ne_zero, if_false, realCurvature, block, Scalar.ofScientific_eq,
      Nat.add_zero]
    norm_cast

theorem knowsGradient (whole : n % 2 = 0) : (objective n : Objective EReal).KnowsGradient
    (fun x : Fin n → ℝ => sumOver 2 n realBlock (padded x))
    fun x i => blockwise 2 realSlope (padded x) i where
  value := value_ofReal value_coe
  gradient := entries_ofReal gradient_coe
  slope := sumOver_begins whole realBlock_begins

theorem knowsHessian : (objective n : Objective EReal).KnowsHessian
    (fun (x : Fin n → ℝ) i => blockwise 2 realSlope (padded x) i)
    fun x v i => realCurvature (block 2 (padded x) (i / 2)) (block 2 (padded v) (i / 2)) (i % 2) where
  product x v out := by
    change (do writeFirst? n (product (← readFirst? n (Vec.ofReal x).toArray)
      (← readFirst? n (Vec.ofReal v).toArray)) out.toArray) = _
    rw [readFirst?_ofReal]
    exact entries_ofReal (product_coe (padded x)) v out
  slope x v i := blockwise_begins realSlope_begins x v i

end Rosenbrock

/-! ## The extended Powell function -/

namespace Powell

/-- The residuals of one block over real numbers. -/
noncomputable def realResidual (x : Nat → ℝ) : Nat → ℝ
  | 0 => x 0 + 10.0 * x 1
  | 1 => √5.0 * (x 2 - x 3)
  | 2 => (x 1 - 2.0 * x 2) * (x 1 - 2.0 * x 2)
  | _ => √10.0 * ((x 0 - x 3) * (x 0 - x 3))

noncomputable def realBlock (x : Nat → ℝ) : ℝ :=
  ∑ r ∈ Finset.range 4, realResidual x r * realResidual x r

/-- The derivatives of a block by its four variables. -/
noncomputable def realSlope (x : Nat → ℝ) : Nat → ℝ
  | 0 => 2.0 * realResidual x 0 + 2.0 * realResidual x 3 * (2.0 * √10.0 * (x 0 - x 3))
  | 1 => 20.0 * realResidual x 0 + 2.0 * realResidual x 2 * (2.0 * (x 1 - 2.0 * x 2))
  | 2 => 2.0 * √5.0 * realResidual x 1 - 4.0 * realResidual x 2 * (2.0 * (x 1 - 2.0 * x 2))
  | _ => -2.0 * √5.0 * realResidual x 1 - 2.0 * realResidual x 3 * (2.0 * √10.0 * (x 0 - x 3))

/-- How a residual changes in a direction. -/
noncomputable def realChange (x v : Nat → ℝ) : Nat → ℝ
  | 0 => v 0 + 10.0 * v 1
  | 1 => √5.0 * (v 2 - v 3)
  | 2 => 2.0 * (x 1 - 2.0 * x 2) * (v 1 - 2.0 * v 2)
  | _ => 2.0 * √10.0 * (x 0 - x 3) * (v 0 - v 3)

theorem realResidual_begins (x v : Nat → ℝ) (r : Nat) :
    BeginsWith (fun t => realResidual (x + t • v) r) (realResidual x r) (realChange x v r) := by
  have along (r : Nat) : BeginsWith (fun t => (x + t • v) r) (x r) (v r) := .line (x r) (v r)
  have middle := (along 1).sub ((along 2).smul 2.0)
  have outer := (along 0).sub (along 3)
  unfold realResidual realChange
  split
  · exact (along 0).add ((along 1).smul 10.0)
  · exact ((along 2).sub (along 3)).smul √5.0
  · refine (middle.mul middle).congr rfl rfl ?_
    norm_num
    ring
  · refine ((outer.mul outer).smul √10.0).congr rfl rfl ?_
    norm_num
    ring

theorem realBlock_begins (x v : Nat → ℝ) :
    BeginsWith (fun t => realBlock (x + t • v)) (realBlock x)
      (∑ r ∈ Finset.range 4, realSlope x r * v r) := by
  refine (BeginsWith.sum _ fun r =>
    (realResidual_begins x v r).mul (realResidual_begins x v r)).congr rfl rfl ?_
  simp only [Finset.sum_range_succ, Finset.sum_range_zero, realSlope, realChange]
  norm_num
  ring

variable {n : Nat}

theorem residuals_coe (x : Nat → ℝ) (j : Nat) :
    residuals (fun i => (x i : EReal)) j =
      ⟨(realResidual (block 4 x j) 0 : EReal), (realResidual (block 4 x j) 1 : EReal),
        (realResidual (block 4 x j) 2 : EReal), (realResidual (block 4 x j) 3 : EReal)⟩ := by
  simp only [residuals, square, realResidual, block, Scalar.ofScientific_eq, Scalar.sqrt_coe, Nat.add_zero]
  norm_cast

theorem value_coe (x : Nat → ℝ) : value n (fun i => (x i : EReal)) = sumOver 4 n realBlock x := by
  refine foldl_coe (fun total j => ?_) _
  simp only [residuals_coe, square, realBlock, Finset.sum_range_succ, Finset.sum_range_zero]
  norm_cast
  ring

theorem gradient_coe (x : Nat → ℝ) (i : Nat) :
    gradient (fun i => (x i : EReal)) i = blockwise 4 realSlope x i := by
  unfold gradient blockwise
  have below : i % 4 < 4 := Nat.mod_lt _ (by norm_num)
  simp only [residuals_coe]
  interval_cases i % 4
  all_goals
    simp only [realSlope, block, Scalar.ofScientific_eq, Scalar.sqrt_coe, Nat.add_zero]
    norm_cast

theorem knowsGradient (whole : n % 4 = 0) : (objective n : Objective EReal).KnowsGradient
    (fun x : Fin n → ℝ => sumOver 4 n realBlock (padded x))
    fun x i => blockwise 4 realSlope (padded x) i where
  value := value_ofReal value_coe
  gradient := entries_ofReal gradient_coe
  slope := sumOver_begins whole realBlock_begins

end Powell

/-! ## Sphere, quadratics and linear functions -/

section Vectors

variable {n : Nat}

/-- A matrix of real numbers. -/
noncomputable def DenseMatrix.ofReal (A : Matrix (Fin n) (Fin n) ℝ) : DenseMatrix EReal n n where
  rows := Vector.ofFn fun i => Vec.ofReal (A i)

/-- A sum from the first term on, each later term in front, is the sum. -/
theorem foldl_front_eq_sum (first : EReal) (rest : List EReal) :
    rest.foldl (fun total term => term + total) first = (first :: rest).sum := by
  induction rest generalizing first with
  | nil => simp
  | cons next rest ih =>
      rw [List.foldl_cons, ih, List.sum_cons, List.sum_cons, List.sum_cons, add_assoc, add_left_comm]

theorem rowProduct_ofReal (a x : Fin n → ℝ) :
    DenseMatrix.rowProduct (Vec.ofReal a) (Vec.ofReal x) = ((a ⬝ᵥ x : ℝ) : EReal) := by
  have terms : (Vector.zipWith (· * ·) (Vec.ofReal a) (Vec.ofReal x)).toList =
      List.ofFn fun i => ((a i * x i : ℝ) : EReal) := by
    have products : Vector.zipWith (· * ·) (Vec.ofReal a) (Vec.ofReal x) = Vec.ofReal (a * x) :=
      Vec.ext_get fun i => by simp [Vec.get_eq_getElem, Vec.ofReal]
    rw [products]
    exact Vector.toList_ofFn
  have sum : (List.ofFn fun i => ((a i * x i : ℝ) : EReal)).sum = ((a ⬝ᵥ x : ℝ) : EReal) := by
    rw [List.sum_ofFn, ← Vec.blockSum_eq_sum, Vec.blockSum_coe]
    rfl
  unfold DenseMatrix.rowProduct
  rw [terms, ← sum]
  cases List.ofFn fun i => ((a i * x i : ℝ) : EReal) with
  | nil => rfl
  | cons first rest => exact foldl_front_eq_sum first rest

theorem mulVec_ofReal (A : Matrix (Fin n) (Fin n) ℝ) (x : Fin n → ℝ) :
    (DenseMatrix.ofReal A).mulVec (Vec.ofReal x) = Vec.ofReal (A *ᵥ x) := by
  apply Vec.ext_get
  intro i
  rw [Vec.get_ofReal]
  refine Eq.trans ?_ (rowProduct_ofReal (A i) x)
  simp [DenseMatrix.mulVec, DenseMatrix.ofReal, Vec.get_eq_getElem]

theorem replaceAll?_toArray {α : Type} (v out : Vec α n) :
    replaceAll? v.toArray out.toArray = .ok v.toArray := by
  simp [replaceAll?]

/-- Half of a real number. -/
theorem half_coe (a : ℝ) : (0.5 : EReal) * (a : EReal) = ((0.5 * a : ℝ) : EReal) := by
  rw [Scalar.ofScientific_eq, EReal.coe_mul]

end Vectors

namespace Quadratic

variable {n : Nat} (A : Matrix (Fin n) (Fin n) ℝ) (b : Fin n → ℝ)

/-- A quadratic with real coefficients. -/
noncomputable def ofReal : Quadratic EReal n where
  a := DenseMatrix.ofReal A
  b := Vec.ofReal b

noncomputable def realValue (x : Fin n → ℝ) : ℝ := 0.5 * (x ⬝ᵥ A *ᵥ x) + b ⬝ᵥ x

theorem value_coe (x : Fin n → ℝ) : (ofReal A b).value (Vec.ofReal x) = realValue A b x := by
  unfold value ofReal realValue
  rw [mulVec_ofReal, Vec.dot_ofReal, Vec.dot_ofReal, half_coe, EReal.coe_add]

variable {A}

/-- Along a line, a quadratic is a parabola. -/
theorem realValue_ray (symmetric : A.IsSymm) (x v : Fin n → ℝ) (t : ℝ) :
    realValue A b (x + t • v) =
      realValue A b x + t * ((A *ᵥ x + b) ⬝ᵥ v) + t * t * (0.5 * (v ⬝ᵥ A *ᵥ v)) := by
  have crossed : x ⬝ᵥ A *ᵥ v = A *ᵥ x ⬝ᵥ v := by
    rw [dotProduct_mulVec, ← mulVec_transpose, symmetric.eq]
  simp only [realValue, mulVec_add, mulVec_smul, add_dotProduct, dotProduct_add, smul_dotProduct,
    dotProduct_smul, smul_eq_mul, crossed, dotProduct_comm v (A *ᵥ x)]
  ring

theorem knowsGradient (symmetric : A.IsSymm) :
    (ofReal A b).objective.KnowsGradient (realValue A b) fun x => A *ᵥ x + b where
  value x := by
    change (ofReal A b).value <$> Vec.ofArray? n (Vec.ofReal x).toArray = _
    rw [Vec.ofArray?_toArray, ← value_coe]
    rfl
  gradient x out := by
    change (Vec.ofArray? n (Vec.ofReal x).toArray >>= fun x =>
      replaceAll? ((ofReal A b).gradient x).toArray out.toArray) = _
    rw [Vec.ofArray?_toArray]
    change replaceAll? ((DenseMatrix.ofReal A).mulVec (Vec.ofReal x) + Vec.ofReal b).toArray out.toArray = _
    rw [replaceAll?_toArray, mulVec_ofReal, Vec.ofReal_add]
  slope x v := (BeginsWith.parabola _ _ (0.5 * (v ⬝ᵥ A *ᵥ v))).congr
    (funext fun t => realValue_ray b symmetric x v t) rfl rfl

theorem knowsHessian : (ofReal A b).objective.KnowsHessian (fun x => A *ᵥ x + b) fun _ v => A *ᵥ v where
  product x v out := by
    change (Vec.ofArray? n (Vec.ofReal v).toArray >>= fun v =>
      replaceAll? ((ofReal A b).product v).toArray out.toArray) = _
    rw [Vec.ofArray?_toArray]
    change replaceAll? ((DenseMatrix.ofReal A).mulVec (Vec.ofReal v)).toArray out.toArray = _
    rw [replaceAll?_toArray, mulVec_ofReal]
  slope x v i := by
    refine (BeginsWith.line _ _).congr (funext fun t => ?_) rfl rfl
    simp only [mulVec_add, mulVec_smul, Pi.add_apply, Pi.smul_apply, smul_eq_mul]
    ring

end Quadratic

namespace Sphere

variable {n : Nat}

/-- The sphere is the quadratic of the unit matrix. -/
theorem knowsGradient : (objective : Objective EReal).KnowsGradient
    (Quadratic.realValue (1 : Matrix (Fin n) (Fin n) ℝ) 0) id where
  value x := by
    refine (computes.value (Vec.ofReal x)).trans (congrArg Except.ok ?_)
    rw [Vec.normSq_ofReal, half_coe, Quadratic.realValue, one_mulVec, zero_dotProduct, add_zero]
  gradient x out := computes.gradient (Vec.ofReal x) out
  slope x v := by
    have slope := (Quadratic.knowsGradient 0 (isSymm_one (n := Fin n) (α := ℝ))).slope x v
    rwa [one_mulVec, add_zero] at slope

theorem knowsHessian :
    (objective : Objective EReal).KnowsHessian (id : (Fin n → ℝ) → Fin n → ℝ) fun _ v => v where
  product x v out := product (Vec.ofReal x) (Vec.ofReal v) out
  slope x v i := .line (x i) (v i)

end Sphere

namespace Linear

variable {n : Nat} (c : Fin n → ℝ)

theorem knowsGradient : (objective (Vec.ofReal c)).KnowsGradient (fun x => c ⬝ᵥ x) fun _ => c where
  value x := by
    change (Vec.ofReal c).dot <$> Vec.ofArray? n (Vec.ofReal x).toArray = _
    rw [Vec.ofArray?_toArray, ← Vec.dot_ofReal]
    rfl
  gradient x out := replaceAll?_toArray (Vec.ofReal c) out
  slope x v := by
    refine (BeginsWith.line (c ⬝ᵥ x) (c ⬝ᵥ v)).congr (funext fun t => ?_) rfl rfl
    rw [dotProduct_add, dotProduct_smul, smul_eq_mul]

theorem knowsHessian : (objective (Vec.ofReal c)).KnowsHessian (fun _ => c) fun _ _ => 0 where
  product x v out := by
    refine congrArg Except.ok ?_
    rw [← Vec.zeros_eq_ofReal, Vec.zeros, Vector.toArray_replicate, Array.map_const', Vector.size_toArray]
  slope x v i := .const (c i)

end Linear

/-! ## All of them -/

/-- **The derivatives of the benchmarks are the true ones.** In a dimension that its blocks fill, the
Rosenbrock function hands out the gradients of its values and the products of its second derivatives; so do
the sphere, a quadratic with a symmetric matrix and a linear function in every dimension. The Powell function
hands out its gradients, and differences of them for products. All entries are written over. -/
theorem Benchmark.derivatives_agree :
    (∀ n, n % 2 = 0 → (Rosenbrock.objective n : Objective EReal).AgreesTwice n) ∧
      (∀ n, n % 4 = 0 → (Powell.objective n : Objective EReal).AgreesOnce n ∧
        (Powell.objective n : Objective EReal).product =
          Objective.forwardProduct Scalar.sqrtEpsilon (Powell.objective n).gradient) ∧
      (∀ n, (Sphere.objective : Objective EReal).AgreesTwice n) ∧
      (∀ n (A : Matrix (Fin n) (Fin n) ℝ) (b : Fin n → ℝ), A.IsSymm →
        (Quadratic.ofReal A b).objective.AgreesTwice n) ∧
      ∀ n (c : Fin n → ℝ), (Linear.objective (Vec.ofReal c)).AgreesTwice n := by
  refine ⟨fun n whole => ?_, fun n whole => ?_, fun n => ?_, fun n A b symmetric => ?_, fun n c => ?_⟩
  · exact ⟨_, _, _, Rosenbrock.knowsGradient whole, Rosenbrock.knowsHessian⟩
  · exact ⟨⟨_, _, Powell.knowsGradient whole⟩, rfl⟩
  · exact ⟨_, _, _, Sphere.knowsGradient, Sphere.knowsHessian⟩
  · exact ⟨_, _, _, Quadratic.knowsGradient b symmetric, Quadratic.knowsHessian b⟩
  · exact ⟨_, _, _, Linear.knowsGradient c, Linear.knowsHessian c⟩

/-- A matrix that mixes two variables. -/
def mixing : Matrix (Fin 2) (Fin 2) ℝ := !![1, 1; 1, 0]

theorem mixing_isSymm : mixing.IsSymm := by
  ext i j
  fin_cases i <;> fin_cases j <;> rfl

theorem mixing_mulVec (a b : ℝ) : mixing *ᵥ ![a, b] = ![a + b, a] := by
  funext i
  fin_cases i <;> simp [mixing, mulVec, dotProduct, Fin.sum_univ_two]

/-- Two blocks of either function of blocks, and a quadratic of which the matrix mixes the variables. -/
theorem Benchmark.derivatives_agree_blocks :
    (4 % 2 = 0 ∧ (Rosenbrock.objective 4 : Objective EReal).AgreesTwice 4) ∧
      (8 % 4 = 0 ∧ (Powell.objective 8 : Objective EReal).AgreesOnce 8) ∧
      mixing.IsSymm ∧ (Quadratic.ofReal mixing ![1, -1]).objective.AgreesTwice 2 := by
  obtain ⟨rosenbrock, powell, -, quadratic, -⟩ := Benchmark.derivatives_agree
  exact ⟨⟨rfl, rosenbrock 4 rfl⟩, ⟨rfl, (powell 8 rfl).1⟩, mixing_isSymm, quadratic 2 _ _ mixing_isSymm⟩

end BoxNewton

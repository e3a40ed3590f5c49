import Mathlib
import BoxNewton.Proofs.Evaluation
import BoxNewton.Proofs.Order
import BoxNewton.QuadraticModel

/-!
# Exact numbers

The extended real line is a type of scalars (`instScalarEReal`): the arithmetic is exact, and a bound
that is not there is infinite. On vectors of real numbers (`Vec.ofReal`) every operation of the
algorithms is the one of linear algebra. In particular the sums in blocks of eight are sums
(`blockSum_eq_sum`), whatever their order was for.

From a real point of a box, every projected step is real and ends in the box
(`Box.exists_projectedStep`), at the projection of the unbounded step
(`Box.project_of_projectedStep`).
-/

set_option autoImplicit false

namespace BoxNewton

/-- The square root on the extended real line. As on the real line, it is zero below zero. -/
noncomputable def extendedSqrt : EReal → EReal
  | ⊥ => 0
  | ⊤ => ⊤
  | (x : ℝ) => (√x : ℝ)

/-- The extended real line, with the round-off constants of double precision. -/
noncomputable instance instScalarEReal : Scalar EReal where
  ofScientific m s e := ((OfScientific.ofScientific m s e : ℝ) : EReal)
  decideLT := Classical.decRel _
  decideLE := Classical.decRel _
  sqrt := extendedSqrt
  infinity := ⊤
  epsilon := ((2.220446049250313e-16 : ℝ) : EReal)
  sqrtEpsilon := ((1.4901161193847656e-8 : ℝ) : EReal)
  cbrtEpsilon := ((6.0554544523933395e-6 : ℝ) : EReal)
  tinyStep := ((2.2227587494850775e-162 : ℝ) : EReal)
  neg_infinity_le_infinity := le_top

namespace Scalar

instance : LawfulOrder EReal where
  number_left {x _} _ := le_refl x
  number_right {_ y} _ := le_refl y
  le_trans := fun h k => h.trans k
  le_total _ _ := LinearOrder.le_total _ _
  lt_iff := lt_iff_le_not_ge

variable {x y : EReal}

@[simp] theorem sqrt_coe (a : ℝ) : sqrt (a : EReal) = ((√a : ℝ) : EReal) := rfl

/-- Every extended real number is a number. -/
@[simp] theorem isNumber (x : EReal) : IsNumber x := le_refl x

@[simp] theorem larger_eq_max (x y : EReal) : larger x y = max x y := by
  unfold larger
  split
  · rename_i less
    exact (max_eq_right less.le).symm
  · rename_i notLess
    rw [if_pos (isNumber x)]
    exact (max_eq_left (not_lt.1 notLess)).symm

@[simp] theorem smaller_eq_min (x y : EReal) : smaller x y = min x y := by
  unfold smaller
  split
  · rename_i less
    exact (min_eq_right less.le).symm
  · rename_i notLess
    rw [if_pos (isNumber x)]
    exact (min_eq_left (not_lt.1 notLess)).symm

theorem agree_iff : Agree x y ↔ x = y := le_antisymm_iff.symm

@[simp] theorem infinity_eq : (infinity : EReal) = ⊤ := rfl

theorem ofScientific_eq (m : Nat) (s : Bool) (e : Nat) :
    (OfScientific.ofScientific m s e : EReal) = ((OfScientific.ofScientific m s e : ℝ) : EReal) := rfl

theorem epsilon_eq : (epsilon : EReal) = ((2.220446049250313e-16 : ℝ) : EReal) := rfl

theorem sqrtEpsilon_eq : (sqrtEpsilon : EReal) = ((1.4901161193847656e-8 : ℝ) : EReal) := rfl

theorem isFinite_coe (a : ℝ) : IsFinite (a : EReal) := ⟨EReal.bot_lt_coe a, EReal.coe_lt_top a⟩

theorem exists_coe_of_isFinite {x : EReal} (finite : IsFinite x) : ∃ a : ℝ, x = a := by
  lift x to ℝ using ⟨finite.2.ne, finite.1.ne'⟩
  exact ⟨x, rfl⟩

theorem abs_coe (a : ℝ) : abs (a : EReal) = ((|a| : ℝ) : EReal) := by
  unfold abs
  split
  · rename_i neg
    rw [abs_of_neg (EReal.coe_neg'.1 neg), EReal.coe_neg]
  · rename_i nonneg
    rw [abs_of_nonneg (EReal.coe_nonneg.1 (not_lt.1 nonneg))]

end Scalar

/-! ## Real vectors -/

namespace Vec

variable {n : Nat}

/-- A vector of real numbers. -/
noncomputable def ofReal (v : Fin n → ℝ) : Vec EReal n := Vector.ofFn fun i => (v i : EReal)

@[simp] theorem get_ofReal (v : Fin n → ℝ) (i : Fin n) : (ofReal v).get i = (v i : EReal) := by
  simp [ofReal]

theorem ofReal_injective : Function.Injective (ofReal : (Fin n → ℝ) → Vec EReal n) := by
  intro u v same
  funext i
  have entry := congrArg (fun w : Vec EReal n => w.get i) same
  simpa using entry

@[simp] theorem ofReal_add (u v : Fin n → ℝ) : ofReal u + ofReal v = ofReal (u + v) :=
  ext_get fun i => by simp

@[simp] theorem sub_ofReal (u v : Fin n → ℝ) : ofReal u - ofReal v = ofReal (u - v) :=
  ext_get fun i => by simp

@[simp] theorem ofReal_neg (u : Fin n → ℝ) : -ofReal u = ofReal (-u) :=
  ext_get fun i => by simp

@[simp] theorem zeros_eq_ofReal : (zeros n : Vec EReal n) = ofReal 0 :=
  ext_get fun i => by simp

@[simp] theorem addScaled_ofReal (y x : Fin n → ℝ) (a : ℝ) :
    (ofReal y).addScaled (a : EReal) (ofReal x) = ofReal (y + a • x) := by
  apply ext_get
  intro i
  simp [addScaled, add_comm]

@[simp] theorem conjugate_ofReal (r p : Fin n → ℝ) (b : ℝ) :
    conjugate (ofReal r) (b : EReal) (ofReal p) = ofReal (r + b • p) := by
  unfold conjugate
  split
  · rename_i zero
    have zero : b = 0 := by simpa [Scalar.agree_iff] using zero
    simp [zero]
  · apply ext_get
    intro i
    simp

@[simp] theorem scaleBy_ofReal (u : Fin n → ℝ) (a : ℝ) :
    (ofReal u).scaleBy (a : EReal) = ofReal (a • u) := by
  apply ext_get
  intro i
  simp [scaleBy, mul_comm]

@[simp] theorem divideBy_ofReal (u : Fin n → ℝ) (a : ℝ) :
    (ofReal u).divideBy (a : EReal) = ofReal (a⁻¹ • u) := by
  apply ext_get
  intro i
  simp [divideBy, ← EReal.coe_div, div_eq_inv_mul]

/-- A map of real vectors as an operator on vectors of extended reals. -/
noncomputable def realMap (H : (Fin n → ℝ) → Fin n → ℝ) (v : Vec EReal n) : Vec EReal n :=
  ofReal (H fun i => (v.get i).toReal)

@[simp] theorem realMap_ofReal (H : (Fin n → ℝ) → Fin n → ℝ) (u : Fin n → ℝ) :
    realMap H (ofReal u) = ofReal (H u) := by
  simp [realMap]

/-! ## Sums in blocks of eight -/

section Sums

variable {β : Type} [AddCommMonoid β]

/-- Adding terms one after the other adds their sum. -/
theorem fold_add (m : Nat) (term : (j : Nat) → j < m → β) (init : β) :
    Nat.fold m (fun j h total => total + term j h) init =
      init + ∑ j : Fin m, term j.val j.isLt := by
  induction m with
  | zero => simp
  | succ m ih =>
      rw [Nat.fold_succ, ih fun j h => term j (Nat.lt_succ_of_lt h), Fin.sum_univ_castSucc,
        add_assoc]
      rfl

/-- A sum over whole blocks of `k` terms, block by block. -/
theorem sum_range_blocks {k : Nat} (term : Nat → β) (m : Nat) :
    ∑ i ∈ Finset.range (k * m), term i =
      ∑ j ∈ Finset.range m, ∑ r ∈ Finset.range k, term (k * j + r) := by
  induction m with
  | zero => simp
  | succ m ih => rw [Nat.mul_succ, Finset.sum_range_add, ih, Finset.sum_range_succ]

end Sums

/-- **The sum in blocks of eight is the sum.** -/
theorem blockSum_eq_sum (term : Fin n → EReal) : blockSum term = ∑ i, term i := by
  let all : Nat → EReal := fun i => if h : i < n then term ⟨i, h⟩ else 0
  have known : ∀ i (h : i < n), term ⟨i, h⟩ = all i := fun i h => by simp only [all, dif_pos h]
  have lane : ∀ k : Fin 8, laneSum term k = ∑ j ∈ Finset.range (n / 8), all (8 * j + k) := by
    intro k
    rw [laneSum, fold_add, zero_add, Finset.sum_range]
    exact Finset.sum_congr rfl fun j _ => known _ _
  have tail : ∀ head,
      tailSum term head = head + ∑ j ∈ Finset.range (n % 8), all (8 * (n / 8) + j) := by
    intro head
    rw [tailSum, fold_add, Finset.sum_range]
    exact congrArg _ (Finset.sum_congr rfl fun j _ => known _ _)
  have whole : ∑ i, term i = ∑ i ∈ Finset.range (8 * (n / 8) + n % 8), all i := by
    rw [Nat.div_add_mod, Finset.sum_range]
    exact Finset.sum_congr rfl fun i _ => known _ _
  rw [whole, Finset.sum_range_add, sum_range_blocks, Finset.sum_comm, Finset.sum_range (n := 8),
    Fin.sum_univ_eight, blockSum, tail]
  simp only [lane]
  abel

theorem blockSum_coe (term : Fin n → ℝ) :
    blockSum (fun i => (term i : EReal)) = ((∑ i, term i : ℝ) : EReal) := by
  rw [blockSum_eq_sum]
  exact (map_sum (⟨⟨Real.toEReal, EReal.coe_zero⟩, EReal.coe_add⟩ : ℝ →+ EReal) term _).symm

@[simp] theorem dot_ofReal (u v : Fin n → ℝ) :
    (ofReal u).dot (ofReal v) = ((u ⬝ᵥ v : ℝ) : EReal) := by
  unfold dot
  simp only [get_ofReal]
  exact blockSum_coe fun i => u i * v i

@[simp] theorem normSq_ofReal (u : Fin n → ℝ) : (ofReal u).normSq = ((u ⬝ᵥ u : ℝ) : EReal) :=
  dot_ofReal u u

@[simp] theorem norm_ofReal (u : Fin n → ℝ) : (ofReal u).norm = ((√(u ⬝ᵥ u) : ℝ) : EReal) := by
  simp [norm]

end Vec

/-! ## Real vectors with two entries -/

theorem smul_pair (a b c : ℝ) : a • (![b, c] : Fin 2 → ℝ) = ![a * b, a * c] := by
  simp

theorem add_pair (a b c d : ℝ) : (![a, b] : Fin 2 → ℝ) + ![c, d] = ![a + c, b + d] := by
  simp

theorem neg_pair (a b : ℝ) : -(![a, b] : Fin 2 → ℝ) = ![-a, -b] := by
  simp

theorem dot_pair (a b c d : ℝ) : (![a, b] : Fin 2 → ℝ) ⬝ᵥ ![c, d] = a * c + b * d := by
  simp [dotProduct, Fin.sum_univ_two]

/-! ## The model -/

/-- The model of real vectors is real. -/
theorem ModelValue.ofImage_ofReal {n : Nat} (g s hs : Fin n → ℝ) :
    ModelValue.ofImage (Vec.ofReal g) (Vec.ofReal s) (Vec.ofReal hs) =
      { image := Vec.ofReal hs, slope := ((s ⬝ᵥ g : ℝ) : EReal)
        value := ((1 / 2 * (s ⬝ᵥ hs) + s ⬝ᵥ g : ℝ) : EReal) } := by
  have half : (0.5 : EReal) = ((1 / 2 : ℝ) : EReal) := by
    change ((OfScientific.ofScientific 5 true 1 : ℝ) : EReal) = _
    norm_num
  simp only [ofImage, Vec.dot_ofReal, half]
  norm_cast

theorem ModelValue.isSufficient_ofReal {n : Nat} (g s hs : Fin n → ℝ) (mu0 : ℝ) :
    (ofImage (Vec.ofReal g) (Vec.ofReal s) (Vec.ofReal hs)).IsSufficient (mu0 : EReal) ↔
      1 / 2 * (s ⬝ᵥ hs) + g ⬝ᵥ s ≤ mu0 * (g ⬝ᵥ s) := by
  rw [ofImage_ofReal, IsSufficient, ← EReal.coe_mul, EReal.coe_le_coe_iff, dotProduct_comm g s]

theorem ModelValue.isInsufficient_ofReal {n : Nat} (g s hs : Fin n → ℝ) (mu0 : ℝ) :
    (ofImage (Vec.ofReal g) (Vec.ofReal s) (Vec.ofReal hs)).IsInsufficient (mu0 : EReal) ↔
      mu0 * (g ⬝ᵥ s) ≤ 1 / 2 * (s ⬝ᵥ hs) + g ⬝ᵥ s := by
  rw [ofImage_ofReal, IsInsufficient, ← EReal.coe_mul, EReal.coe_le_coe_iff, dotProduct_comm g s]

/-! ## Parts of real vectors -/

namespace IndexSet

variable {n : Nat} {set : IndexSet (Fin n)}

@[simp] theorem gather_ofReal (set : IndexSet (Fin n)) (v : Fin n → ℝ) :
    set.gather (Vec.ofReal v) = Vec.ofReal (v ∘ set.index) :=
  Vec.ext_get fun k => by simp

/-- The vector with the given selected entries and zeros elsewhere. -/
def spread (set : IndexSet (Fin n)) : (Fin set.size → ℝ) →ₗ[ℝ] Fin n → ℝ where
  toFun part i := ∑ k, if set.index k = i then part k else 0
  map_add' u v := by
    funext i
    simp only [Pi.add_apply, ← Finset.sum_add_distrib]
    exact Finset.sum_congr rfl fun k _ => by split <;> simp
  map_smul' a u := by
    funext i
    simp [Finset.mul_sum]

theorem spread_index (distinct : set.Distinct) (part : Fin set.size → ℝ) (k : Fin set.size) :
    set.spread part (set.index k) = part k := by
  simp [spread, distinct.eq_iff]

theorem spread_of_ne (part : Fin set.size → ℝ) {i : Fin n} (away : ∀ k, set.index k ≠ i) :
    set.spread part i = 0 := by
  simp [spread, away]

/-- Spreading is the transpose of gathering. -/
theorem dotProduct_spread (u : Fin n → ℝ) (part : Fin set.size → ℝ) :
    u ⬝ᵥ set.spread part = (u ∘ set.index) ⬝ᵥ part := by
  simp only [dotProduct, spread, LinearMap.coe_mk, AddHom.coe_mk, Finset.mul_sum, mul_ite, mul_zero]
  rw [Finset.sum_comm]
  simp

theorem accumulate_ofReal (distinct : set.Distinct) (part : Fin set.size → ℝ) (full : Fin n → ℝ) :
    set.accumulate (Vec.ofReal part) (Vec.ofReal full) = Vec.ofReal (full + set.spread part) := by
  apply Vec.ext_get
  intro i
  by_cases here : ∃ k, set.index k = i
  · obtain ⟨k, rfl⟩ := here
    rw [get_accumulate_index distinct]
    simp [spread_index distinct]
  · have away : ∀ k, set.index k ≠ i := fun k equal => here ⟨k, equal⟩
    rw [get_accumulate_of_ne _ _ away]
    simp [spread_of_ne part away]

theorem scatter_ofReal (distinct : set.Distinct) (part : Fin set.size → ℝ) (full : Fin n → ℝ) :
    set.scatter (Vec.ofReal (full ∘ set.index + part)) (Vec.ofReal full) =
      Vec.ofReal (full + set.spread part) := by
  apply Vec.ext_get
  intro i
  by_cases here : ∃ k, set.index k = i
  · obtain ⟨k, rfl⟩ := here
    rw [get_scatter_index distinct]
    simp [spread_index distinct]
  · have away : ∀ k, set.index k ≠ i := fun k equal => here ⟨k, equal⟩
    rw [get_scatter_of_ne _ _ away]
    simp [spread_of_ne part away]

/-- Written over zeros, the selected entries are spread. -/
theorem toReal_scatter_zeros (distinct : set.Distinct) (v : Vec EReal set.size) :
    (fun i => ((set.scatter v (Vec.zeros n)).get i).toReal) = set.spread fun k => (v.get k).toReal := by
  funext i
  by_cases here : ∃ k, set.index k = i
  · obtain ⟨k, rfl⟩ := here
    rw [get_scatter_index distinct, spread_index distinct]
  · have away : ∀ k, set.index k ≠ i := fun k equal => here ⟨k, equal⟩
    rw [get_scatter_of_ne _ _ away, spread_of_ne _ away, Vec.get_zeros]
    exact EReal.toReal_zero

end IndexSet

/-! ## Boxes -/

namespace Box

variable {n : Nat} {box : Box EReal n} {x : Fin n → ℝ}

theorem contains_unbounded (x : Vec EReal n) : (unbounded n).Contains x := fun _ => ⟨bot_le, le_top⟩

theorem project_ofReal (inside : box.Contains (Vec.ofReal x)) :
    box.project (Vec.ofReal x) = Vec.ofReal x :=
  project_of_holds fun i _ => inside i

theorem contains_restrict (inside : box.Contains (Vec.ofReal x)) (set : IndexSet (Fin n)) :
    (box.restrict set).Contains (Vec.ofReal (x ∘ set.index)) := by
  intro k
  rw [← IndexSet.gather_ofReal, IndexSet.get_gather]
  exact inside _

/-- What lies between bounds that admit a real number is real. -/
theorem exists_real_between {lo hi : EReal} {a : ℝ} (below : lo ≤ a) (above : a ≤ hi) (y : ℝ) :
    ∃ z : ℝ, min (max (y : EReal) lo) hi = z ∧ lo ≤ z ∧ z ≤ hi := by
  have low : lo ≤ min (max (y : EReal) lo) hi := le_min (le_max_right _ _) (below.trans above)
  have high : min (max (y : EReal) lo) hi ≤ hi := min_le_right _ _
  have notTop : min (max (y : EReal) lo) hi ≠ ⊤ := by
    refine ne_of_lt (lt_of_le_of_lt (min_le_left _ _) (max_lt (EReal.coe_lt_top y) ?_))
    exact below.trans_lt (EReal.coe_lt_top a)
  have notBot : min (max (y : EReal) lo) hi ≠ ⊥ := by
    refine ne_of_gt (lt_min (lt_max_of_lt_left (EReal.bot_lt_coe y)) ?_)
    exact (EReal.bot_lt_coe a).trans_le above
  lift min (max (y : EReal) lo) hi to ℝ using ⟨notTop, notBot⟩ with z
  exact ⟨z, rfl, low, high⟩

/-- From a point of the box, a projected step is real and ends in the box. -/
theorem exists_projectedStep (inside : box.Contains (Vec.ofReal x)) (d : Fin n → ℝ) (t : ℝ) :
    ∃ p : Fin n → ℝ, box.projectedStep (Vec.ofReal x) (Vec.ofReal d) t = Vec.ofReal p ∧
      box.Contains (Vec.ofReal (x + p)) := by
  have between : ∀ i, ∃ z : ℝ, min (max ((x i + t * d i : ℝ) : EReal) (box.lower i)) (box.upper i) =
      z ∧ box.lower i ≤ z ∧ z ≤ box.upper i := by
    intro i
    have here := inside i
    rw [Vec.get_ofReal] at here
    exact exists_real_between here.1 here.2 _
  choose z hz using between
  refine ⟨z - x, Vec.ext_get ?_, ?_⟩
  · intro i
    have entry := (hz i).1
    push_cast at entry
    simp [entry]
  · intro i
    simpa using (hz i).2

/-- Between bounds in order, the two ways to write the projection of a number agree. -/
theorem clamp_eq_min_max {lo hi : EReal} (ordered : lo ≤ hi) (y : EReal) :
    clamp lo hi y = min (max y lo) hi := by
  unfold clamp
  split
  · rename_i below
    rw [max_eq_right below.le, min_eq_left ordered]
  · rename_i notBelow
    rw [max_eq_left (not_lt.1 notBelow)]
    split
    · rename_i above
      rw [min_eq_right above.le]
    · rename_i notAbove
      rw [min_eq_left (not_lt.1 notAbove)]

/-- A projected step leads to the projection of the unbounded one. -/
theorem project_of_projectedStep {d p : Fin n → ℝ} {t : ℝ}
    (stepped : box.projectedStep (Vec.ofReal x) (Vec.ofReal d) t = Vec.ofReal p) :
    box.project (Vec.ofReal (x + t • d)) = Vec.ofReal (x + p) := by
  apply Vec.ext_get
  intro i
  have entry := congrArg (fun v : Vec EReal n => v.get i) stepped
  simp only [get_projectedStep, Vec.get_ofReal, Scalar.larger_eq_max, Scalar.smaller_eq_min]
    at entry
  rw [get_project, Vec.get_ofReal, Vec.get_ofReal, clamp_eq_min_max (box.ordered i)]
  push_cast [Pi.add_apply, Pi.smul_apply, smul_eq_mul]
  rw [← entry]
  exact ((add_comm _ _).trans EReal.sub_add_cancel).symm

/-- A step that stays in the box is not bent by the projection. -/
theorem projectedStep_of_contains {d : Fin n → ℝ} {t : ℝ}
    (inside : box.Contains (Vec.ofReal (x + t • d))) :
    box.projectedStep (Vec.ofReal x) (Vec.ofReal d) t = Vec.ofReal (t • d) := by
  apply Vec.ext_get
  intro i
  have here := inside i
  simp only [Vec.get_ofReal, Pi.add_apply, Pi.smul_apply, smul_eq_mul] at here
  push_cast at here
  simp only [get_projectedStep, Vec.get_ofReal, Scalar.larger_eq_max, Scalar.smaller_eq_min,
    max_eq_left here.1, min_eq_left here.2, Pi.smul_apply, smul_eq_mul]
  norm_cast
  rw [add_sub_cancel_left]

/-- The box between real bounds. -/
noncomputable def ofReal (lower upper : Fin n → ℝ) (ordered : ∀ i, lower i ≤ upper i) :
    Box EReal n where
  lower i := lower i
  upper i := upper i
  ordered i := EReal.coe_le_coe_iff.2 (ordered i)

/-- The breakpoints of the only variable. -/
theorem breakpoints_single {box : Box EReal 1} {x d : Vec EReal 1} {t : ℝ} (nonneg : 0 ≤ t)
    (meets : box.breakpoint? x d 0 = some (t : EReal)) : box.breakpoints x d = ⟨1, t, t⟩ := by
  have one : List.finRange 1 = [0] := rfl
  simp [breakpoints, one, meets, max_eq_right (EReal.coe_nonneg.2 nonneg)]

section RealBounds

variable {lower upper : Fin n → ℝ} (ordered : ∀ i, lower i ≤ upper i)

theorem contains_ofReal : (ofReal lower upper ordered).Contains (Vec.ofReal x) ↔
    ∀ i, lower i ≤ x i ∧ x i ≤ upper i := by
  simp only [Contains, Vec.get_ofReal, ofReal, EReal.coe_le_coe_iff]

theorem projectedStep_ofReal (x d : Fin n → ℝ) (t : ℝ) :
    (ofReal lower upper ordered).projectedStep (Vec.ofReal x) (Vec.ofReal d) t =
      Vec.ofReal fun i => min (max (x i + t * d i) (lower i)) (upper i) - x i := by
  apply Vec.ext_get
  intro i
  simp only [get_projectedStep, Vec.get_ofReal, Scalar.larger_eq_max, Scalar.smaller_eq_min, ofReal]
  norm_cast

theorem breakpoint?_ofReal (x d : Fin n → ℝ) (i : Fin n) :
    (ofReal lower upper ordered).breakpoint? (Vec.ofReal x) (Vec.ofReal d) i =
      if 0 < d i ∧ x i < upper i then some (((upper i - x i) / d i : ℝ) : EReal)
      else if d i < 0 ∧ lower i < x i then some (((lower i - x i) / d i : ℝ) : EReal)
      else none := by
  simp only [breakpoint?, Vec.get_ofReal, ofReal, EReal.coe_lt_coe_iff, EReal.coe_pos,
    EReal.coe_neg']
  split_ifs <;> rfl

end RealBounds

end Box

end BoxNewton

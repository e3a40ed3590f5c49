import Mathlib
import BoxNewton.Domain
import BoxNewton.Proofs.PathBreakpoints
import BoxNewton.Proofs.SymmetricDirections
import BoxNewton.Solver.Iteration

/-!
# Stationary points

A minimization stops where the projected gradient vanishes, and a refinement where the gradient vanishes in
the free variables. The two tests are written apart from each other. Here they are shown to agree, and to
say what one expects of a point of a box where a function with this gradient has a minimum: no feasible
direction descends (`Domain.stationarity_agrees`).

All of them say of every variable by itself that the steepest descent leaves it where it is, because it has
no slope there or because it is blocked (`Box.Rests`). A variable is left out of the free ones exactly if it
rests on a bound (`Box.isFree_iff`); a free variable at rest has no slope.
-/

set_option autoImplicit false

namespace BoxNewton

/-! ## The free variables of arrays -/

/-- A filter whose tests all succeed is the plain filter. -/
theorem filterAuxM_ok {ι ε : Type} (holds : ι → Bool) (items kept : List ι) :
    List.filterAuxM (fun i => (Except.ok (holds i) : Except ε Bool)) items kept =
      Except.ok ((items.filter holds).reverse ++ kept) := by
  induction items generalizing kept with
  | nil => rfl
  | cons i items ih =>
      rw [List.filterAuxM]
      change List.filterAuxM _ items _ = _
      rw [ih]
      cases keep : holds i <;> simp [keep]

namespace Domain

variable {α : Type} [Scalar α] (dom : Domain α)

theorem isFree?_toArray (x g : Vec α dom.dim) (i : Fin dom.dim) :
    dom.isFree? x g.toArray i = .ok (decide (dom.box.IsFree x g i)) := by
  have entry : Vec.component? g.toArray i.val = .ok (g.get i) := by
    simp [Vec.component?, Vec.get_eq_getElem]
  rw [isFree?, entry]
  split
  · rfl
  · rename_i between
    have free : dom.box.IsFree x g i := fun blocked =>
      between (blocked.imp And.left And.left)
    rw [decide_eq_true free]
    rfl

/-- On arrays that fit, the search for free variables finds those of the box. -/
theorem freeVariables?_toArray (x g : Vec α dom.dim) :
    dom.freeVariables? x.toArray g.toArray = .ok (dom.box.freeVariables x g) := by
  have read : Vec.ofFirst? dom.dim x.toArray = .ok x := by
    simp [Vec.ofFirst?]
  have found : (List.finRange dom.dim).filterM (dom.isFree? x g.toArray) =
      .ok ((List.finRange dom.dim).filter fun i => dom.box.IsFree x g i) := by
    rw [funext (dom.isFree?_toArray x g), List.filterM, filterAuxM_ok, List.append_nil]
    change Except.ok (List.reverse _) = _
    rw [List.reverse_reverse]
  rw [freeVariables?, read]
  change (do return IndexSet.ofList (← (List.finRange dom.dim).filterM (dom.isFree? x g.toArray))) = _
  rw [found]
  rfl

end Domain

/-! ## Variables at rest -/

namespace Box

variable {n : Nat} {box : Box EReal n} {x g : Fin n → ℝ} (inside : box.Contains (Vec.ofReal x)) {t : ℝ}
  {i : Fin n}

/-- The steepest descent leaves the variable where it is. -/
def Rests (box : Box EReal n) (x g : Fin n → ℝ) (i : Fin n) : Prop := g i = 0 ∨ box.Blocks x (-g) i

/-- A variable is free unless it rests on a bound. -/
theorem isFree_iff : box.IsFree (Vec.ofReal x) (Vec.ofReal g) i ↔
    ¬ (IsOnBound (box.lower i) (box.upper i) (x i : EReal) ∧ box.Rests x g i) := by
  rw [IsFree, IsBlocked, IsOnBound, Rests, Blocks, Vec.get_ofReal, Vec.get_ofReal, EReal.coe_nonneg,
    EReal.coe_nonpos, Pi.neg_apply, neg_lt_zero, neg_pos]
  rcases lt_trichotomy (g i) 0 with down | still | up
  · simp only [down, down.le, down.ne, down.not_ge, down.not_gt, true_and, false_and, and_true, and_false,
      false_or]
    tauto
  · simp [still]
  · simp only [up, up.le, up.ne', up.not_ge, up.not_gt, true_and, false_and, and_true, and_false,
      false_or, or_false]
    tauto

include inside in
theorem rests_iff_path (positive : 0 < t) : box.Rests x g i ↔ box.path x (-g) t i = 0 := by
  rw [path_eq_zero_iff inside positive, Pi.neg_apply, neg_eq_zero, Rests]

include inside in
theorem rests_iff_project (positive : 0 < t) : box.Rests x g i ↔
    (box.project (Vec.ofReal (x - t • g))).get i = (x i : EReal) := by
  have back : x - t • g = x + t • -g := by rw [smul_neg, sub_eq_add_neg]
  rw [back, get_project_eq_path inside, EReal.coe_eq_coe_iff, add_eq_left, rests_iff_path inside positive]

include inside in
theorem isOnBound_iff : IsOnBound (box.lower i) (box.upper i) (x i : EReal) ↔
    (x i : EReal) = box.lower i ∨ (x i : EReal) = box.upper i := by
  have here := inside i
  rw [Vec.get_ofReal] at here
  rw [IsOnBound, here.1.ge_iff_eq', here.2.ge_iff_eq', eq_comm (a := box.upper i)]

include inside in
theorem stationarityAt_eq : stationarityAt box (Vec.ofReal x) (Vec.ofReal g) =
    ((√(box.path x (-g) 1 ⬝ᵥ box.path x (-g) 1) : ℝ) : EReal) := by
  rw [stationarityAt, ← EReal.coe_one, ← EReal.coe_neg, projectedStep_eq_path inside, path_neg, neg_neg,
    Vec.norm_ofReal]

include inside in
/-- **The projected gradient vanishes** exactly if every variable rests. -/
theorem stationarityAt_eq_zero : stationarityAt box (Vec.ofReal x) (Vec.ofReal g) = 0 ↔
    ∀ i, box.Rests x g i := by
  rw [stationarityAt_eq inside, EReal.coe_eq_zero, sqrt_dot_self_eq_zero, funext_iff]
  exact forall_congr' fun i => (rests_iff_path inside one_pos).symm

include inside in
theorem project_eq_self_iff : box.project (Vec.ofReal (x - g)) = Vec.ofReal x ↔ ∀ i, box.Rests x g i := by
  constructor
  · intro same i
    rw [rests_iff_project inside one_pos, one_smul, same, Vec.get_ofReal]
  · intro rests
    refine Vec.ext_get fun i => ?_
    have here := (rests_iff_project inside one_pos).1 (rests i)
    rwa [one_smul, ← Vec.get_ofReal x] at here

/-- **The free variables have no slope** exactly if every variable rests: the others are at rest anyway, and
a free variable at rest is not blocked. -/
theorem slope_free_eq_zero_iff : (∀ i ∈ (box.freeVariables (Vec.ofReal x) (Vec.ofReal g)).toList, g i = 0) ↔
    ∀ i, box.Rests x g i := by
  refine forall_congr' fun i => ?_
  rw [mem_freeVariables, isFree_iff]
  constructor
  · intro flat
    by_contra moves
    exact moves (.inl (flat fun both => moves both.2))
  · rintro (flat | blocked) free
    · exact flat
    · refine absurd ⟨?_, .inr blocked⟩ free
      rcases blocked with ⟨-, low⟩ | ⟨-, high⟩
      · exact .inl low
      · exact .inr high

/-- Where a variable rests, no feasible direction descends along it. -/
theorem Rests.nonneg {y : ℝ} (rests : box.Rests x g i) (above : box.lower i ≤ y)
    (below : (y : EReal) ≤ box.upper i) : 0 ≤ g i * (y - x i) := by
  rcases rests with flat | ⟨up, low⟩ | ⟨down, high⟩
  · rw [flat, zero_mul]
  · rw [Pi.neg_apply, neg_lt_zero] at up
    exact mul_nonneg up.le (sub_nonneg.2 (EReal.coe_le_coe_iff.1 (low.trans above)))
  · rw [Pi.neg_apply, neg_pos] at down
    exact mul_nonneg_of_nonpos_of_nonpos down.le (sub_nonpos.2 (EReal.coe_le_coe_iff.1 (below.trans high)))

include inside in
/-- The steepest descent goes against the slope. -/
theorem mul_path_nonpos (i : Fin n) : g i * box.path x (-g) 1 i ≤ 0 := by
  obtain ⟨c, -, nonneg, -, gone⟩ := exists_path_eq inside zero_le_one i (d := -g)
  have square : g i * box.path x (-g) 1 i = -(c * (g i * g i)) := by
    rw [gone, Pi.neg_apply]
    ring
  rw [square, neg_nonpos]
  exact mul_nonneg nonneg (mul_self_nonneg _)

include inside in
/-- **No feasible direction descends** exactly if every variable rests. -/
theorem variational_iff : (∀ y : Fin n → ℝ, box.Contains (Vec.ofReal y) → 0 ≤ g ⬝ᵥ (y - x)) ↔
    ∀ i, box.Rests x g i := by
  constructor
  · intro minimal i
    have along : 0 ≤ ∑ i, g i * box.path x (-g) 1 i := by
      have there := minimal (x + box.path x (-g) 1) (contains_path inside 1)
      rwa [add_sub_cancel_left] at there
    have each := (Finset.sum_eq_zero_iff_of_nonpos fun i _ => mul_path_nonpos inside i).1
      (le_antisymm (Finset.sum_nonpos fun i _ => mul_path_nonpos inside i) along) i (Finset.mem_univ i)
    rcases mul_eq_zero.1 each with flat | still
    · exact .inl flat
    · exact (rests_iff_path inside one_pos).2 still
  · intro rests y there
    refine Finset.sum_nonneg fun i _ => ?_
    have between := there i
    rw [Vec.get_ofReal] at between
    exact (rests i).nonneg between.1 between.2

end Box

/-! ## Stationary points -/

namespace Domain

variable (dom : Domain EReal) {x : Fin dom.dim → ℝ}

/-- **The tests for a stationary point agree.** The free variables are found, in increasing order; they are
all but those that rest on a bound. And the minimization is at a stationary point if and only if the
refinement is, which is where no feasible direction descends. -/
theorem stationarity_agrees (inside : dom.box.Contains (Vec.ofReal x)) (g : Fin dom.dim → ℝ) :
    ∃ free, dom.freeVariables? (Vec.ofReal x).toArray (Vec.ofReal g).toArray = .ok free ∧
      dom.box.freeVariables (Vec.ofReal x) (Vec.ofReal g) = free ∧
      (free.toList.map Fin.val).Pairwise (· < ·) ∧
      (∀ i ∈ free.toList.map Fin.val, i < dom.dim) ∧
      (∀ i, i ∉ free.toList ↔
        ((x i : EReal) = dom.box.lower i ∨ (x i : EReal) = dom.box.upper i) ∧
          ∀ t : ℝ, 0 < t → (dom.box.project (Vec.ofReal (x - t • g))).get i = (x i : EReal)) ∧
      List.TFAE [
        stationarityAt dom.box (Vec.ofReal x) (Vec.ofReal g) = 0,
        dom.box.project (Vec.ofReal (x - g)) = Vec.ofReal x,
        ∀ i ∈ free.toList, g i = 0,
        ∀ y : Fin dom.dim → ℝ, dom.box.Contains (Vec.ofReal y) → 0 ≤ g ⬝ᵥ (y - x)] := by
  refine ⟨_, dom.freeVariables?_toArray _ _, rfl, ?_, ?_, ?_, ?_⟩
  · exact List.pairwise_map.2 (Box.freeVariables_increasing _ _ _)
  · intro i listed
    obtain ⟨k, -, rfl⟩ := List.mem_map.1 listed
    exact k.isLt
  · intro i
    rw [Box.mem_freeVariables, Box.isFree_iff, not_not, Box.isOnBound_iff inside]
    refine and_congr_right fun _ => ⟨fun rests t positive => ?_, fun still => ?_⟩
    · exact (Box.rests_iff_project inside positive).1 rests
    · exact (Box.rests_iff_project inside one_pos).2 (still 1 one_pos)
  · tfae_have 1 ↔ 2 := (Box.stationarityAt_eq_zero inside).trans (Box.project_eq_self_iff inside).symm
    tfae_have 2 ↔ 3 := (Box.project_eq_self_iff inside).trans Box.slope_free_eq_zero_iff.symm
    tfae_have 3 ↔ 4 := Box.slope_free_eq_zero_iff.trans (Box.variational_iff inside).symm
    tfae_finish

/-! ### An edge of the corridor -/

theorem edge_inside : Box.corridor.Contains (Vec.ofReal ![1, 1, 0]) := by
  intro i
  fin_cases i <;> simp [Box.corridor]

/-- With a slope that presses the first and the third variable against their bounds, no feasible direction
descends. -/
theorem edge_minimal (y : Fin 3 → ℝ) (there : Box.corridor.Contains (Vec.ofReal y)) :
    0 ≤ (![-2, 0, 3] : Fin 3 → ℝ) ⬝ᵥ (y - ![1, 1, 0]) := by
  have first : y 0 ≤ 1 := by
    have wall : Box.corridor.upper 0 = ((1 : ℝ) : EReal) := by simp [Box.corridor]
    have below := (there 0).2
    rw [Vec.get_ofReal, wall] at below
    exact EReal.coe_le_coe_iff.1 below
  have third : 0 ≤ y 2 := by
    have above := (there 2).1
    rw [Vec.get_ofReal] at above
    exact EReal.coe_nonneg.1 above
  have value : (![-2, 0, 3] : Fin 3 → ℝ) ⬝ᵥ (y - ![1, 1, 0]) = -2 * (y 0 - 1) + 3 * y 2 := by
    simp [dotProduct, Fin.sum_univ_three]
  rw [value]
  linarith

/-- The corridor as a domain. -/
noncomputable def corridor : Domain EReal := ⟨3, Nat.zero_lt_succ 2, Box.corridor⟩

/-- A minimization with this slope stops on the edge. -/
theorem stationarity_agrees_edge :
    corridor.box.Contains (Vec.ofReal ![1, 1, 0]) ∧
      stationarityAt corridor.box (Vec.ofReal ![1, 1, 0]) (Vec.ofReal ![-2, 0, 3]) = 0 := by
  obtain ⟨free, -, -, -, -, -, agree⟩ := corridor.stationarity_agrees edge_inside ![-2, 0, 3]
  exact ⟨edge_inside, (agree.out 0 3).2 edge_minimal⟩

end Domain

end BoxNewton

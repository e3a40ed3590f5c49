import Mathlib
import BoxNewton.Proofs.ExactNumbers

/-!
# Steps along a projected path

From a point of the box, the path `P(x + t d)` is followed one variable at a time: a variable goes along
the direction up to its reach and then stays where it is (`Box.path_apply`). The reach is the breakpoint of
the variable, if it has one, and zero for a variable that is blocked. So no variable ever turns back
(`Box.abs_path_le`), and the step only gets longer (`Box.path_dot_self_le`). Up to the first breakpoint
the path is the ray of the variables that are not blocked (`Box.path_eq_smul`), and after the last one it
does not change (`Box.path_eq_of_max_le`).

The breakpoints are the lengths at which a variable meets its bound (`Box.breakpoint?_eq_some`). Folding
them with the selections of the program gives the first of them, or infinity if there is none
(`Box.breakpoints_min_cases`), and a last one that none comes after (`Box.le_breakpoints_max`).
-/

set_option autoImplicit false

namespace BoxNewton

theorem dot_self_le_of_abs_le {n : Nat} {u v : Fin n → ℝ} (below : ∀ i, |u i| ≤ |v i|) :
    u ⬝ᵥ u ≤ v ⬝ᵥ v := by
  refine Finset.sum_le_sum fun i _ => ?_
  rw [← abs_mul_abs_self, ← abs_mul_abs_self (v i)]
  exact mul_self_le_mul_self (abs_nonneg _) (below i)

namespace Box

variable {n : Nat}

/-- The step `P(x + t d) - x` along a projected path. -/
noncomputable def path (box : Box EReal n) (x d : Fin n → ℝ) (t : ℝ) : Fin n → ℝ := fun i =>
  (clamp (box.lower i) (box.upper i) ((x i + t * d i : ℝ) : EReal)).toReal - x i

/-- The variable is on the bound that the direction points to. -/
def Blocks (box : Box EReal n) (x d : Fin n → ℝ) (i : Fin n) : Prop :=
  (d i < 0 ∧ (x i : EReal) ≤ box.lower i) ∨ (0 < d i ∧ box.upper i ≤ x i)

/-- The variable is not blocked, and at this step length it is on the bound ahead of it. -/
def Meets (box : Box EReal n) (x d : Fin n → ℝ) (i : Fin n) (t : ℝ) : Prop :=
  (d i < 0 ∧ box.lower i < x i ∧ ((x i + t * d i : ℝ) : EReal) = box.lower i) ∨
    (0 < d i ∧ (x i : EReal) < box.upper i ∧ ((x i + t * d i : ℝ) : EReal) = box.upper i)

/-- The variable was not blocked, and at this step length the step has put it on the bound ahead of it. -/
def Lands (box : Box EReal n) (x d : Fin n → ℝ) (i : Fin n) (t : ℝ) : Prop :=
  ¬ box.Blocks x d i ∧
    ((d i < 0 ∧ ((x i + box.path x d t i : ℝ) : EReal) = box.lower i) ∨
      (0 < d i ∧ ((x i + box.path x d t i : ℝ) : EReal) = box.upper i))

/-- The step at a length decreases the model sufficiently. -/
def Decreases (box : Box EReal n) (x d g : Fin n → ℝ) (H : (Fin n → ℝ) → Fin n → ℝ) (mu0 t : ℝ) :
    Prop :=
  0.5 * (box.path x d t ⬝ᵥ H (box.path x d t)) + g ⬝ᵥ box.path x d t ≤
    mu0 * (g ⬝ᵥ box.path x d t)

/-- The step length up to which a variable follows the direction. -/
noncomputable def reach (box : Box EReal n) (x d : Fin n → ℝ) (i : Fin n) : EReal :=
  (box.breakpoint? (Vec.ofReal x) (Vec.ofReal d) i).getD 0

variable {box : Box EReal n} {x d : Fin n → ℝ} (inside : box.Contains (Vec.ofReal x)) {t u : ℝ}
  {i : Fin n}

theorem decreases_iff {g : Fin n → ℝ} {H : (Fin n → ℝ) → Fin n → ℝ} {mu0 : ℝ} :
    box.Decreases x d g H mu0 t ↔
      1 / 2 * (box.path x d t ⬝ᵥ H (box.path x d t)) + g ⬝ᵥ box.path x d t ≤
        mu0 * (g ⬝ᵥ box.path x d t) := by
  have half : (0.5 : ℝ) = 1 / 2 := by norm_num
  rw [Decreases, half]

section Inside

include inside

theorem coe_add_path (t : ℝ) (i : Fin n) : ((x i + box.path x d t i : ℝ) : EReal) =
    min (max ((x i + t * d i : ℝ) : EReal) (box.lower i)) (box.upper i) := by
  have here := inside i
  rw [Vec.get_ofReal] at here
  obtain ⟨a, arrives, -⟩ := exists_real_between here.1 here.2 (x i + t * d i)
  rw [path, clamp_eq_min_max (box.ordered i), arrives, EReal.toReal_coe, add_sub_cancel]

/-- The path leads to the projection. -/
theorem ofReal_add_path (t : ℝ) :
    Vec.ofReal (x + box.path x d t) = box.project (Vec.ofReal (x + t • d)) := by
  apply Vec.ext_get
  intro i
  rw [get_project, Vec.get_ofReal, Vec.get_ofReal, clamp_eq_min_max (box.ordered i)]
  exact coe_add_path inside t i

theorem contains_path (t : ℝ) : box.Contains (Vec.ofReal (x + box.path x d t)) := by
  intro i
  rw [Vec.get_ofReal, Pi.add_apply, coe_add_path inside]
  exact ⟨le_min (le_max_right _ _) (box.ordered i), min_le_right _ _⟩

theorem projectedStep_eq_path (t : ℝ) :
    box.projectedStep (Vec.ofReal x) (Vec.ofReal d) t = Vec.ofReal (box.path x d t) := by
  obtain ⟨p, stepped, -⟩ := exists_projectedStep inside d t
  have same := (ofReal_add_path inside t).trans (project_of_projectedStep stepped)
  rw [stepped, add_left_cancel (Vec.ofReal_injective same)]

end Inside

/-- The path between real bounds. -/
theorem path_ofReal {lower upper : Fin n → ℝ} (ordered : ∀ i, lower i ≤ upper i) (x d : Fin n → ℝ)
    (t : ℝ) : (ofReal lower upper ordered).path x d t = fun i =>
      min (max (x i + t * d i) (lower i)) (upper i) - x i := by
  funext i
  have clamped : clamp ((ofReal lower upper ordered).lower i) ((ofReal lower upper ordered).upper i)
      ((x i + t * d i : ℝ) : EReal) = ((min (max (x i + t * d i) (lower i)) (upper i) : ℝ) : EReal) := by
    rw [clamp_eq_min_max ((ofReal lower upper ordered).ordered i)]
    norm_cast
  rw [path, clamped, EReal.toReal_coe]

/-! ### How far a variable goes -/

theorem breakpoint?_eq_none : box.breakpoint? (Vec.ofReal x) (Vec.ofReal d) i = none ↔
    d i = 0 ∨ box.Blocks x d i := by
  simp only [breakpoint?, Vec.get_ofReal, EReal.coe_pos, EReal.coe_neg', Blocks]
  rcases lt_trichotomy (d i) 0 with down | still | up
  · simp [down, down.not_gt, down.ne]
  · simp [still]
  · simp [up, up.not_gt, up.ne']

theorem breakpoint?_of_pos (up : 0 < d i) (below : (x i : EReal) < box.upper i) :
    box.breakpoint? (Vec.ofReal x) (Vec.ofReal d) i =
      some ((box.upper i - (x i : EReal)) / (d i : EReal)) := by
  simp [breakpoint?, EReal.coe_pos.2 up, below]

theorem breakpoint?_of_neg (down : d i < 0) (above : box.lower i < (x i : EReal)) :
    box.breakpoint? (Vec.ofReal x) (Vec.ofReal d) i =
      some ((box.lower i - (x i : EReal)) / (d i : EReal)) := by
  simp [breakpoint?, EReal.coe_pos.not.2 down.not_gt, EReal.coe_neg'.2 down, above]

include inside in
theorem reach_of_pos (up : 0 < d i) :
    box.reach x d i = ⊤ ∧ box.upper i = ⊤ ∨
      ∃ b : ℝ, box.reach x d i = b ∧ 0 ≤ b ∧ box.upper i = ((x i + b * d i : ℝ) : EReal) := by
  have here := (inside i).2
  rw [Vec.get_ofReal] at here
  induction bound : box.upper i with
  | bot => exact absurd (bound ▸ here) (not_le.2 (EReal.bot_lt_coe _))
  | top =>
      left
      have below : (x i : EReal) < box.upper i := bound ▸ EReal.coe_lt_top _
      rw [reach, breakpoint?_of_pos up below, bound, EReal.top_sub_coe]
      exact ⟨EReal.top_div_of_pos_ne_top (EReal.coe_pos.2 up) (EReal.coe_ne_top _), rfl⟩
  | coe u =>
      right
      rw [bound, EReal.coe_le_coe_iff] at here
      refine ⟨(u - x i) / d i, ?_, div_nonneg (sub_nonneg.2 here) up.le, ?_⟩
      · rcases here.lt_or_eq with below | on
        · rw [reach, breakpoint?_of_pos up (bound ▸ EReal.coe_lt_coe_iff.2 below), bound]
          rfl
        · have blocks : box.Blocks x d i := .inr ⟨up, (bound.trans (congrArg _ on.symm)).le⟩
          rw [reach, breakpoint?_eq_none.2 (.inr blocks), on, sub_self, zero_div]
          rfl
      · rw [div_mul_cancel₀ _ up.ne', add_sub_cancel]

include inside in
theorem reach_of_neg (down : d i < 0) :
    box.reach x d i = ⊤ ∧ box.lower i = ⊥ ∨
      ∃ b : ℝ, box.reach x d i = b ∧ 0 ≤ b ∧ box.lower i = ((x i + b * d i : ℝ) : EReal) := by
  have here := (inside i).1
  rw [Vec.get_ofReal] at here
  induction bound : box.lower i with
  | top => exact absurd (bound ▸ here) (not_le.2 (EReal.coe_lt_top _))
  | bot =>
      left
      have above : box.lower i < (x i : EReal) := bound ▸ EReal.bot_lt_coe _
      rw [reach, breakpoint?_of_neg down above, bound, EReal.bot_sub]
      exact ⟨EReal.bot_div_of_neg_ne_bot (EReal.coe_neg'.2 down) (EReal.coe_ne_bot _), rfl⟩
  | coe l =>
      right
      rw [bound, EReal.coe_le_coe_iff] at here
      refine ⟨(l - x i) / d i, ?_, div_nonneg_of_nonpos (sub_nonpos.2 here) down.le, ?_⟩
      · rcases here.lt_or_eq with above | on
        · rw [reach, breakpoint?_of_neg down (bound ▸ EReal.coe_lt_coe_iff.2 above), bound]
          rfl
        · have blocks : box.Blocks x d i := .inl ⟨down, (bound.trans (congrArg _ on)).ge⟩
          rw [reach, breakpoint?_eq_none.2 (.inr blocks), on, sub_self, zero_div]
          rfl
      · rw [div_mul_cancel₀ _ down.ne, add_sub_cancel]

section Entry

include inside

theorem path_eq_of_between (above : box.lower i ≤ ((x i + t * d i : ℝ) : EReal))
    (below : ((x i + t * d i : ℝ) : EReal) ≤ box.upper i) : box.path x d t i = t * d i := by
  have arrives := coe_add_path inside t i (d := d)
  rw [max_eq_left above, min_eq_left below] at arrives
  exact add_left_cancel (EReal.coe_injective arrives)

/-- Along no direction there is no step. -/
theorem path_zero (t : ℝ) : box.path x 0 t = 0 := by
  funext i
  have here := inside i
  rw [Vec.get_ofReal] at here
  exact (path_eq_of_between inside (by simpa using here.1) (by simpa using here.2)).trans (mul_zero t)

theorem path_eq_of_le_lower (bound : box.lower i = ((x i + u * d i : ℝ) : EReal))
    (past : ((x i + t * d i : ℝ) : EReal) ≤ box.lower i) : box.path x d t i = u * d i := by
  have arrives := coe_add_path inside t i (d := d)
  rw [max_eq_right past, min_eq_left (box.ordered i), bound] at arrives
  exact add_left_cancel (EReal.coe_injective arrives)

theorem path_eq_of_upper_le (bound : box.upper i = ((x i + u * d i : ℝ) : EReal))
    (past : box.upper i ≤ ((x i + t * d i : ℝ) : EReal)) : box.path x d t i = u * d i := by
  have arrives := coe_add_path inside t i (d := d)
  rw [min_eq_right (past.trans (le_max_left _ _)), bound] at arrives
  exact add_left_cancel (EReal.coe_injective arrives)

/-- **Up to its reach a variable follows the direction, and then it stays where it is.** -/
theorem path_apply (nonneg : 0 ≤ t) (i : Fin n) :
    box.path x d t i = (min (t : EReal) (box.reach x d i)).toReal * d i := by
  have here := inside i
  rw [Vec.get_ofReal] at here
  rcases lt_trichotomy (d i) 0 with down | still | up
  · have back := mul_nonpos_of_nonneg_of_nonpos nonneg down.le
    have below := (EReal.coe_le_coe_iff.2 (by linarith : x i + t * d i ≤ x i)).trans here.2
    rcases reach_of_neg inside down with ⟨far, bound⟩ | ⟨b, near, -, bound⟩
    · rw [far, min_eq_left le_top, EReal.toReal_coe]
      exact path_eq_of_between inside (bound ▸ bot_le) below
    · rcases le_total t b with before | after
      · rw [near, min_eq_left (EReal.coe_le_coe_iff.2 before), EReal.toReal_coe]
        exact path_eq_of_between inside (bound ▸ EReal.coe_le_coe_iff.2 (by nlinarith)) below
      · rw [near, min_eq_right (EReal.coe_le_coe_iff.2 after), EReal.toReal_coe]
        exact path_eq_of_le_lower inside bound (bound ▸ EReal.coe_le_coe_iff.2 (by nlinarith))
  · rw [path_eq_of_between inside (by simpa [still] using here.1) (by simpa [still] using here.2),
      still, mul_zero, mul_zero]
  · have forth := mul_nonneg nonneg up.le
    have above := here.1.trans (EReal.coe_le_coe_iff.2 (by linarith : x i ≤ x i + t * d i))
    rcases reach_of_pos inside up with ⟨far, bound⟩ | ⟨b, near, -, bound⟩
    · rw [far, min_eq_left le_top, EReal.toReal_coe]
      exact path_eq_of_between inside above (bound ▸ le_top)
    · rcases le_total t b with before | after
      · rw [near, min_eq_left (EReal.coe_le_coe_iff.2 before), EReal.toReal_coe]
        exact path_eq_of_between inside above (bound ▸ EReal.coe_le_coe_iff.2 (by nlinarith))
      · rw [near, min_eq_right (EReal.coe_le_coe_iff.2 after), EReal.toReal_coe]
        exact path_eq_of_upper_le inside bound (bound ▸ EReal.coe_le_coe_iff.2 (by nlinarith))

end Entry

include inside in
theorem reach_nonneg (i : Fin n) : 0 ≤ box.reach x d i := by
  rcases lt_trichotomy (d i) 0 with down | still | up
  · rcases reach_of_neg inside down with ⟨far, -⟩ | ⟨b, near, nonneg, -⟩
    · exact far ▸ le_top
    · exact near ▸ EReal.coe_nonneg.2 nonneg
  · rw [reach, breakpoint?_eq_none.2 (.inl still)]
    rfl
  · rcases reach_of_pos inside up with ⟨far, -⟩ | ⟨b, near, nonneg, -⟩
    · exact far ▸ le_top
    · exact near ▸ EReal.coe_nonneg.2 nonneg

include inside in
/-- At any step length a variable has gone along the direction for a length of its own. -/
theorem exists_path_eq (nonneg : 0 ≤ t) (i : Fin n) :
    ∃ c : ℝ, (c : EReal) = min (t : EReal) (box.reach x d i) ∧ 0 ≤ c ∧ c ≤ t ∧
      box.path x d t i = c * d i := by
  have start : 0 ≤ min (t : EReal) (box.reach x d i) :=
    le_min (EReal.coe_nonneg.2 nonneg) (reach_nonneg inside i)
  have finite : Scalar.IsFinite (min (t : EReal) (box.reach x d i)) :=
    ⟨EReal.bot_lt_zero.trans_le start, (min_le_left _ _).trans_lt (EReal.coe_lt_top t)⟩
  obtain ⟨c, same⟩ := Scalar.exists_coe_of_isFinite finite
  refine ⟨c, same.symm, EReal.coe_nonneg.1 (same ▸ start), ?_, ?_⟩
  · exact EReal.coe_le_coe_iff.1 (same ▸ min_le_left _ _)
  · rw [path_apply inside nonneg, same, EReal.toReal_coe]

include inside in
/-- A variable without a breakpoint stays. -/
theorem path_eq_zero_of_none (none : box.breakpoint? (Vec.ofReal x) (Vec.ofReal d) i = none)
    (nonneg : 0 ≤ t) : box.path x d t i = 0 := by
  rw [path_apply inside nonneg, reach, none, Option.getD_none,
    min_eq_right (EReal.coe_nonneg.2 nonneg), EReal.toReal_zero, zero_mul]

include inside in
/-- Up to its reach a variable follows the direction. -/
theorem path_eq_mul (nonneg : 0 ≤ t) (before : (t : EReal) ≤ box.reach x d i) :
    box.path x d t i = t * d i := by
  rw [path_apply inside nonneg, min_eq_left before, EReal.toReal_coe]

include inside in
/-- Beyond its reach a variable stays where it is. -/
theorem path_eq_of_reach_le (nonneg : 0 ≤ t) (after : box.reach x d i ≤ t) (longer : t ≤ u) :
    box.path x d u i = box.path x d t i := by
  have later : box.reach x d i ≤ u := after.trans (EReal.coe_le_coe_iff.2 longer)
  rw [path_apply inside nonneg, path_apply inside (nonneg.trans longer), min_eq_right after,
    min_eq_right later]

include inside in
/-- A variable never turns back. -/
theorem abs_path_le (nonneg : 0 ≤ t) (longer : t ≤ u) (i : Fin n) :
    |box.path x d t i| ≤ |box.path x d u i| := by
  obtain ⟨c, near, cNonneg, -, first⟩ := exists_path_eq inside nonneg i (d := d)
  obtain ⟨e, far, eNonneg, -, second⟩ := exists_path_eq inside (nonneg.trans longer) i (d := d)
  have further : c ≤ e := by
    rw [← EReal.coe_le_coe_iff, near, far]
    exact min_le_min_right _ (EReal.coe_le_coe_iff.2 longer)
  rw [first, second, abs_mul, abs_mul, abs_of_nonneg cNonneg, abs_of_nonneg eNonneg]
  exact mul_le_mul_of_nonneg_right further (abs_nonneg _)

include inside in
/-- No variable goes further than the direction would take it. -/
theorem abs_path_le_mul (nonneg : 0 ≤ t) (i : Fin n) : |box.path x d t i| ≤ t * |d i| := by
  obtain ⟨c, -, cNonneg, short, gone⟩ := exists_path_eq inside nonneg i (d := d)
  rw [gone, abs_mul, abs_of_nonneg cNonneg]
  exact mul_le_mul_of_nonneg_right short (abs_nonneg _)

include inside in
/-- A variable that has moved has moved along the direction. -/
theorem sign_path (nonneg : 0 ≤ t) (i : Fin n) :
    box.path x d t i = 0 ∨ SignType.sign (box.path x d t i) = SignType.sign (d i) := by
  obtain ⟨c, -, cNonneg, -, gone⟩ := exists_path_eq inside nonneg i (d := d)
  rw [gone]
  rcases cNonneg.eq_or_lt with rfl | positive
  · exact .inl (zero_mul _)
  · exact .inr (by rw [sign_mul, sign_pos positive, one_mul])

include inside in
/-- For its length, a longer step does not take a variable further. -/
theorem mul_abs_path_le (nonneg : 0 ≤ t) (longer : t ≤ u) (i : Fin n) :
    t * |box.path x d u i| ≤ u * |box.path x d t i| := by
  obtain ⟨c, near, cNonneg, -, first⟩ := exists_path_eq inside nonneg i (d := d)
  obtain ⟨e, far, eNonneg, short, second⟩ := exists_path_eq inside (nonneg.trans longer) i (d := d)
  have ratio : t * e ≤ u * c := by
    rcases min_choice (t : EReal) (box.reach x d i) with follows | reached
    · rw [follows, EReal.coe_eq_coe_iff] at near
      rw [near, mul_comm u]
      exact mul_le_mul_of_nonneg_left short nonneg
    · have stays : e ≤ c := by
        rw [← EReal.coe_le_coe_iff, near, far, reached]
        exact min_le_right _ _
      exact mul_le_mul longer stays eNonneg (nonneg.trans longer)
  rw [first, second, abs_mul, abs_mul, abs_of_nonneg cNonneg, abs_of_nonneg eNonneg, ← mul_assoc,
    ← mul_assoc]
  exact mul_le_mul_of_nonneg_right ratio (abs_nonneg _)

include inside in
/-- The path only leads away from where it starts. -/
theorem path_dot_self_le (nonneg : 0 ≤ t) (longer : t ≤ u) :
    box.path x d t ⬝ᵥ box.path x d t ≤ box.path x d u ⬝ᵥ box.path x d u :=
  dot_self_le_of_abs_le (abs_path_le inside nonneg longer)

include inside in
/-- Up to the full step, the path stays as near as the direction leads. -/
theorem path_dot_self_le_direction (nonneg : 0 ≤ t) (full : t ≤ 1) :
    box.path x d t ⬝ᵥ box.path x d t ≤ d ⬝ᵥ d :=
  dot_self_le_of_abs_le fun i => (abs_path_le_mul inside nonneg i).trans
    (mul_le_of_le_one_left (abs_nonneg _) full)

/-! ### Breakpoints -/

theorem breakpoint?_eq_some : box.breakpoint? (Vec.ofReal x) (Vec.ofReal d) i = some (t : EReal) ↔
    box.Meets x d i t := by
  rcases lt_trichotomy (d i) 0 with down | still | up
  · rcases le_or_gt (x i : EReal) (box.lower i) with on | above
    · rw [breakpoint?_eq_none.2 (.inr (.inl ⟨down, on⟩))]
      simp [Meets, down.not_gt, on.not_gt]
    · rw [breakpoint?_of_neg down above]
      simp only [Meets, down, down.not_gt, above, true_and, false_and, or_false, Option.some.injEq]
      induction bound : box.lower i with
      | bot =>
          rw [EReal.bot_sub, EReal.bot_div_of_neg_ne_bot (EReal.coe_neg'.2 down) (EReal.coe_ne_bot _)]
          exact iff_of_false (EReal.coe_ne_top t).symm (EReal.coe_ne_bot _)
      | top => exact absurd (bound ▸ above) not_top_lt
      | coe l =>
          rw [← EReal.coe_sub, ← EReal.coe_div, EReal.coe_eq_coe_iff, EReal.coe_eq_coe_iff,
            div_eq_iff down.ne, sub_eq_iff_eq_add', eq_comm]
  · rw [breakpoint?_eq_none.2 (.inl still)]
    simp [Meets, still]
  · rcases le_or_gt (box.upper i) (x i : EReal) with on | below
    · rw [breakpoint?_eq_none.2 (.inr (.inr ⟨up, on⟩))]
      simp [Meets, up.not_gt, on.not_gt]
    · rw [breakpoint?_of_pos up below]
      simp only [Meets, up, up.not_gt, below, true_and, false_and, false_or, Option.some.injEq]
      induction bound : box.upper i with
      | bot => exact absurd (bound ▸ below) not_lt_bot
      | top =>
          rw [EReal.top_sub_coe, EReal.top_div_of_pos_ne_top (EReal.coe_pos.2 up) (EReal.coe_ne_top _)]
          exact iff_of_false (EReal.coe_ne_top t).symm (EReal.coe_ne_top _)
      | coe u =>
          rw [← EReal.coe_sub, ← EReal.coe_div, EReal.coe_eq_coe_iff, EReal.coe_eq_coe_iff,
            div_eq_iff up.ne', sub_eq_iff_eq_add', eq_comm]

theorem Meets.pos (meets : box.Meets x d i t) : 0 < t := by
  rcases meets with ⟨down, above, on⟩ | ⟨up, below, on⟩
  · rw [← on, EReal.coe_lt_coe_iff] at above
    nlinarith
  · rw [← on, EReal.coe_lt_coe_iff] at below
    nlinarith

theorem Meets.reach_eq (meets : box.Meets x d i t) : box.reach x d i = t := by
  rw [reach, breakpoint?_eq_some.2 meets]
  rfl

include inside in
theorem Meets.lands (meets : box.Meets x d i t) : box.Lands x d i t := by
  have follows := path_eq_mul inside meets.pos.le meets.reach_eq.ge
  rw [Lands, Blocks, follows]
  rcases meets with ⟨down, above, on⟩ | ⟨up, below, on⟩
  · exact ⟨by simp [above.not_ge, down.not_gt], .inl ⟨down, on⟩⟩
  · exact ⟨by simp [below.not_ge, up.not_gt], .inr ⟨up, on⟩⟩

/-! ### The first and the last breakpoint -/

theorem foldl_smaller_le (steps : List EReal) (start : EReal) :
    steps.foldl Scalar.smaller start ≤ start ∧ ∀ t ∈ steps, steps.foldl Scalar.smaller start ≤ t := by
  induction steps generalizing start with
  | nil => simp
  | cons first rest ih =>
      obtain ⟨low, lower⟩ := ih (Scalar.smaller start first)
      rw [Scalar.smaller_eq_min] at low lower
      rw [List.foldl_cons, Scalar.smaller_eq_min]
      refine ⟨low.trans (min_le_left _ _), ?_⟩
      intro t ht
      rcases List.mem_cons.1 ht with rfl | later
      · exact low.trans (min_le_right _ _)
      · exact lower t later

theorem le_foldl_larger (steps : List EReal) (start : EReal) :
    start ≤ steps.foldl Scalar.larger start ∧ ∀ t ∈ steps, t ≤ steps.foldl Scalar.larger start := by
  induction steps generalizing start with
  | nil => simp
  | cons first rest ih =>
      obtain ⟨high, higher⟩ := ih (Scalar.larger start first)
      rw [Scalar.larger_eq_max] at high higher
      rw [List.foldl_cons, Scalar.larger_eq_max]
      refine ⟨(le_max_left _ _).trans high, ?_⟩
      intro t ht
      rcases List.mem_cons.1 ht with rfl | later
      · exact (le_max_right _ _).trans high
      · exact higher t later

/-- A fold by one of the two selections comes to one of the scalars that it has gone through. -/
theorem foldl_mem {choose : EReal → EReal → EReal} (chooses : ∀ a b, choose a b = a ∨ choose a b = b)
    (steps : List EReal) (start : EReal) :
    steps.foldl choose start = start ∨ steps.foldl choose start ∈ steps := by
  induction steps generalizing start with
  | nil => exact .inl rfl
  | cons first rest ih =>
      rw [List.foldl_cons, List.mem_cons]
      rcases ih (choose start first) with same | later
      · rw [same]
        exact (chooses start first).imp_right .inl
      · exact .inr (.inr later)

/-- The breakpoints are those of the variables. -/
theorem mem_steps {x d : Vec EReal n} {b : EReal} :
    b ∈ (List.finRange n).filterMap (box.breakpoint? x d) ↔ ∃ i, box.breakpoint? x d i = some b := by
  simp [List.mem_filterMap]

section Breakpoints

variable {x d : Vec EReal n} {b : EReal}

/-- No breakpoint comes before the first one. -/
theorem breakpoints_min_le (meets : box.breakpoint? x d i = some b) :
    (box.breakpoints x d).min ≤ b := by
  have member := mem_steps.2 ⟨i, meets⟩
  unfold breakpoints
  cases steps : (List.finRange n).filterMap (box.breakpoint? x d) with
  | nil => simp [steps] at member
  | cons first rest => exact (foldl_smaller_le (first :: rest) _).2 b (steps ▸ member)

/-- No breakpoint comes after the last one. -/
theorem le_breakpoints_max (meets : box.breakpoint? x d i = some b) :
    b ≤ (box.breakpoints x d).max := by
  have member := mem_steps.2 ⟨i, meets⟩
  unfold breakpoints
  cases steps : (List.finRange n).filterMap (box.breakpoint? x d) with
  | nil => simp [steps] at member
  | cons first rest => exact (le_foldl_larger (first :: rest) _).2 b (steps ▸ member)

/-- The first breakpoint is one of them, or there is none before infinity. -/
theorem breakpoints_min_mem (box : Box EReal n) (x d : Vec EReal n) :
    (box.breakpoints x d).min = ⊤ ∨
      ∃ i, box.breakpoint? x d i = some (box.breakpoints x d).min := by
  simp only [← mem_steps]
  unfold breakpoints
  cases (List.finRange n).filterMap (box.breakpoint? x d) with
  | nil => exact .inl rfl
  | cons first rest =>
      refine foldl_mem (fun a c => ?_) (first :: rest) ⊤
      rw [Scalar.smaller_eq_min]
      exact min_choice a c

/-- The last breakpoint is one of them, if there is one beyond zero. -/
theorem breakpoints_max_mem (counted : 0 < (box.breakpoints x d).count)
    (positive : 0 < (box.breakpoints x d).max) :
    ∃ i, box.breakpoint? x d i = some (box.breakpoints x d).max := by
  simp only [← mem_steps]
  unfold breakpoints at counted positive ⊢
  cases steps : (List.finRange n).filterMap (box.breakpoint? x d) with
  | nil => simp [steps] at counted
  | cons first rest =>
      rw [steps] at positive
      refine (foldl_mem (fun a c => ?_) (first :: rest) 0).resolve_left positive.ne'
      rw [Scalar.larger_eq_max]
      exact max_choice a c

theorem breakpoints_count_pos (meets : box.breakpoint? x d i = some b) :
    0 < (box.breakpoints x d).count := by
  have member := mem_steps.2 ⟨i, meets⟩
  unfold breakpoints
  cases steps : (List.finRange n).filterMap (box.breakpoint? x d) with
  | nil => simp [steps] at member
  | cons first rest => exact Nat.succ_pos _

end Breakpoints

include inside in
/-- A breakpoint is infinite, or the variable meets its bound there. -/
theorem breakpoint?_cases {b : EReal}
    (meets : box.breakpoint? (Vec.ofReal x) (Vec.ofReal d) i = some b) :
    b = ⊤ ∨ ∃ t : ℝ, b = t ∧ box.Meets x d i t := by
  have known : box.reach x d i = b := by rw [reach, meets, Option.getD_some]
  induction b with
  | top => exact .inl rfl
  | coe t => exact .inr ⟨t, rfl, breakpoint?_eq_some.1 meets⟩
  | bot => exact absurd (known ▸ reach_nonneg inside i) (not_le.2 EReal.bot_lt_zero)

include inside in
/-- **The first breakpoint** is the least step length at which a variable meets its bound. It is infinite
if none ever does. -/
theorem breakpoints_min_cases :
    (box.breakpoints (Vec.ofReal x) (Vec.ofReal d)).min = ⊤ ∧ (∀ i t, ¬ box.Meets x d i t) ∨
      ∃ t : ℝ, (box.breakpoints (Vec.ofReal x) (Vec.ofReal d)).min = t ∧
        IsLeast {t | ∃ i, box.Meets x d i t} t := by
  have infinite : (box.breakpoints (Vec.ofReal x) (Vec.ofReal d)).min = ⊤ →
      ∀ i t, ¬ box.Meets x d i t := by
    intro far i t meets
    have before := breakpoints_min_le (breakpoint?_eq_some.2 meets)
    rw [far] at before
    exact EReal.coe_ne_top t (top_le_iff.1 before)
  rcases breakpoints_min_mem box (Vec.ofReal x) (Vec.ofReal d) with far | ⟨i, first⟩
  · exact .inl ⟨far, infinite far⟩
  · rcases breakpoint?_cases inside first with far | ⟨t, near, meets⟩
    · exact .inl ⟨far, infinite far⟩
    · refine .inr ⟨t, near, ⟨i, meets⟩, ?_⟩
      rintro s ⟨j, later⟩
      have before := breakpoints_min_le (breakpoint?_eq_some.2 later)
      rwa [near, EReal.coe_le_coe_iff] at before

/-! ### The path after its last breakpoint -/

include inside in
/-- After the last breakpoint the path does not change. -/
theorem path_eq_of_max_le (nonneg : 0 ≤ t)
    (past : (box.breakpoints (Vec.ofReal x) (Vec.ofReal d)).max ≤ t) (longer : t ≤ u) :
    box.path x d u = box.path x d t := by
  funext i
  refine path_eq_of_reach_le inside nonneg ?_ longer
  cases meets : box.breakpoint? (Vec.ofReal x) (Vec.ofReal d) i with
  | none =>
      rw [reach, meets]
      exact EReal.coe_nonneg.2 nonneg
  | some b =>
      rw [reach, meets]
      exact (le_breakpoints_max meets).trans past

include inside in
/-- Without breakpoints there is no step. -/
theorem path_eq_zero (nonneg : 0 ≤ t)
    (still : ¬ 0 < (box.breakpoints (Vec.ofReal x) (Vec.ofReal d)).count) : box.path x d t = 0 := by
  funext i
  cases meets : box.breakpoint? (Vec.ofReal x) (Vec.ofReal d) i with
  | none => exact path_eq_zero_of_none inside meets nonneg
  | some b => exact absurd (breakpoints_count_pos meets) still

include inside in
/-- A path without a last breakpoint leads out of every ball. -/
theorem exists_lt_norm_path (far : (box.breakpoints (Vec.ofReal x) (Vec.ofReal d)).max = ⊤)
    (counted : 0 < (box.breakpoints (Vec.ofReal x) (Vec.ofReal d)).count) (radius : ℝ) :
    ∃ c : ℝ, ∀ t, 0 ≤ t → c < t → radius < √(box.path x d t ⬝ᵥ box.path x d t) := by
  obtain ⟨i, meets⟩ := breakpoints_max_mem counted (by rw [far]; exact EReal.zero_lt_top)
  rw [far] at meets
  have moves : d i ≠ 0 := by
    intro still
    rw [breakpoint?_eq_none.2 (.inl still)] at meets
    cases meets
  refine ⟨radius / |d i|, fun t nonneg beyond => ?_⟩
  have entry : box.path x d t i = t * d i := by
    refine path_eq_mul inside nonneg ?_
    rw [reach, meets]
    exact le_top
  rw [div_lt_iff₀ (abs_pos.2 moves), ← abs_of_nonneg nonneg, ← abs_mul, ← entry] at beyond
  refine beyond.trans_le (Real.abs_le_sqrt ?_)
  rw [pow_two]
  exact Finset.single_le_sum (f := fun j => box.path x d t j * box.path x d t j)
    (fun j _ => mul_self_nonneg _) (Finset.mem_univ i)

/-! ### The path before its first breakpoint -/

include inside in
theorem breakpoints_min_nonneg : 0 ≤ (box.breakpoints (Vec.ofReal x) (Vec.ofReal d)).min := by
  rcases breakpoints_min_cases inside (d := d) with ⟨far, -⟩ | ⟨t, near, ⟨i, meets⟩, -⟩
  · exact far ▸ le_top
  · exact near ▸ EReal.coe_nonneg.2 meets.pos.le

include inside in
theorem breakpoints_min_of_never (never : ∀ i t, ¬ box.Meets x d i t) :
    (box.breakpoints (Vec.ofReal x) (Vec.ofReal d)).min = ⊤ := by
  rcases breakpoints_min_cases inside (d := d) with ⟨far, -⟩ | ⟨t, -, ⟨i, meets⟩, -⟩
  · exact far
  · exact absurd meets (never i t)

open Classical in
/-- The direction without its entries for blocked variables. -/
noncomputable def movable (box : Box EReal n) (x d : Fin n → ℝ) : Fin n → ℝ := fun i =>
  if box.Blocks x d i then 0 else d i

theorem movable_of_open (free : ∀ i, ¬ box.Blocks x d i) : box.movable x d = d :=
  funext fun i => if_neg (free i)

include inside in
/-- Up to its first breakpoint a path runs straight along the variables that are not blocked. -/
theorem path_eq_smul (nonneg : 0 ≤ t)
    (before : (t : EReal) ≤ (box.breakpoints (Vec.ofReal x) (Vec.ofReal d)).min) :
    box.path x d t = t • box.movable x d := by
  funext i
  rw [Pi.smul_apply, smul_eq_mul, movable]
  split
  · rename_i blocks
    rw [mul_zero]
    exact path_eq_zero_of_none inside (breakpoint?_eq_none.2 (.inr blocks)) nonneg
  · rename_i open'
    cases meets : box.breakpoint? (Vec.ofReal x) (Vec.ofReal d) i with
    | none =>
        have still := (breakpoint?_eq_none.1 meets).resolve_right open'
        rw [path_apply inside nonneg, still, mul_zero, mul_zero]
    | some b =>
        refine path_eq_mul inside nonneg ?_
        rw [reach, meets]
        exact before.trans (breakpoints_min_le meets)

end Box

end BoxNewton

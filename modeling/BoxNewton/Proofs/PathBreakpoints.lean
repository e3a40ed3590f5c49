import Mathlib
import BoxNewton.Proofs.PathSteps

/-!
# What the breakpoints say about a path

The breakpoints are found by one loop over the variables and the projected step by another. Here the two
are compared, for all step lengths at once and with every mix of variables: blocked ones, ones that the
direction leaves out, ones whose bounds coincide and ones without a bound ahead.

A variable moves exactly if it has a breakpoint (`Box.leaves_iff`), so the variables that move are counted
(`Box.breakpoints_count_eq_ncard`). Up to the first breakpoint they follow the direction and the others
stay, at the first breakpoint one of them gets to the bound ahead of it (`Box.Meets.isAhead_iff`), and the
last breakpoint, if it is finite, is the step length from which on the step does not change
(`Box.path_eq_iff`). Together these are `Box.breakpoints_describe`.
-/

set_option autoImplicit false

namespace BoxNewton

namespace Box

/-- The breakpoints are counted. -/
theorem breakpoints_count {α : Type} [Scalar α] {n : Nat} (box : Box α n) (x d : Vec α n) :
    (box.breakpoints x d).count = ((List.finRange n).filterMap (box.breakpoint? x d)).length := by
  unfold breakpoints
  split
  · rename_i nothing
    rw [nothing]
    rfl
  · rename_i listed
    rw [listed]

variable {n : Nat} {box : Box EReal n} {x d : Fin n → ℝ} (inside : box.Contains (Vec.ofReal x)) {t b : ℝ}
  {i : Fin n}

/-! ### Variables that move -/

/-- Some step length changes the variable. -/
def Leaves (box : Box EReal n) (x d : Fin n → ℝ) (i : Fin n) : Prop :=
  ∃ t : ℝ, 0 < t ∧ (box.project (Vec.ofReal (x + t • d))).get i ≠ (x i : EReal)

/-- At the point `y`, the variable is on the bound that the direction points to. -/
def IsAhead (box : Box EReal n) (d : Fin n → ℝ) (y : Vec EReal n) (i : Fin n) : Prop :=
  (d i < 0 ∧ y.get i = box.lower i) ∨ (0 < d i ∧ y.get i = box.upper i)

include inside in
/-- The path leads to the projection, variable by variable. -/
theorem get_project_eq_path (t : ℝ) (i : Fin n) :
    (box.project (Vec.ofReal (x + t • d))).get i = ((x i + box.path x d t i : ℝ) : EReal) := by
  rw [← ofReal_add_path inside, Vec.get_ofReal, Pi.add_apply]

include inside in
/-- A breakpoint is beyond zero. -/
theorem breakpoint?_pos {b : EReal} (meets : box.breakpoint? (Vec.ofReal x) (Vec.ofReal d) i = some b) :
    0 < b := by
  rcases breakpoint?_cases inside meets with far | ⟨t, near, on⟩
  · exact far ▸ EReal.zero_lt_top
  · exact near ▸ EReal.coe_pos.2 on.pos

include inside in
/-- A variable that moves at all moves at once. -/
theorem path_eq_zero_iff (positive : 0 < t) :
    box.path x d t i = 0 ↔ d i = 0 ∨ box.Blocks x d i := by
  rw [← breakpoint?_eq_none]
  cases meets : box.breakpoint? (Vec.ofReal x) (Vec.ofReal d) i with
  | none => exact iff_of_true (path_eq_zero_of_none inside meets positive.le) rfl
  | some b =>
      refine iff_of_false ?_ (Option.some_ne_none b)
      obtain ⟨c, near, -, -, gone⟩ := exists_path_eq inside positive.le i (d := d)
      have moves : d i ≠ 0 := by
        intro still
        rw [breakpoint?_eq_none.2 (.inl still)] at meets
        cases meets
      have far : c ≠ 0 := by
        rw [← EReal.coe_ne_zero, near, reach, meets, Option.getD_some]
        exact (lt_min (EReal.coe_pos.2 positive) (breakpoint?_pos inside meets)).ne'
      rw [gone]
      exact mul_ne_zero far moves

include inside in
theorem leaves_iff : box.Leaves x d i ↔ ¬ (d i = 0 ∨ box.Blocks x d i) := by
  have moves : ∀ t : ℝ, 0 < t → ((box.project (Vec.ofReal (x + t • d))).get i ≠ (x i : EReal) ↔
      ¬ (d i = 0 ∨ box.Blocks x d i)) := by
    intro t positive
    rw [get_project_eq_path inside, Ne, EReal.coe_eq_coe_iff, add_eq_left, path_eq_zero_iff inside positive]
  exact ⟨fun ⟨t, positive, left⟩ => (moves t positive).1 left, fun free =>
    ⟨1, one_pos, (moves 1 one_pos).2 free⟩⟩

include inside in
/-- The variables with a breakpoint are the ones that move. -/
theorem isSome_breakpoint?_iff :
    (box.breakpoint? (Vec.ofReal x) (Vec.ofReal d) i).isSome ↔ box.Leaves x d i := by
  rw [leaves_iff inside, ← breakpoint?_eq_none, Option.isSome_iff_ne_none]

include inside in
/-- **The variables that move are counted.** -/
theorem breakpoints_count_eq_ncard :
    (box.breakpoints (Vec.ofReal x) (Vec.ofReal d)).count = {i | box.Leaves x d i}.ncard := by
  let listed := (List.finRange n).filter fun i =>
    (box.breakpoint? (Vec.ofReal x) (Vec.ofReal d) i).isSome
  have same : {i | box.Leaves x d i} = ↑listed.toFinset := by
    ext i
    simp [listed, isSome_breakpoint?_iff inside]
  rw [breakpoints_count, List.length_filterMap_eq_countP, List.countP_eq_length_filter, same,
    Set.ncard_coe_finset, List.toFinset_card_of_nodup ((List.nodup_finRange n).filter _)]

/-! ### The first breakpoint -/

include inside in
theorem breakpoints_min_pos : 0 < (box.breakpoints (Vec.ofReal x) (Vec.ofReal d)).min := by
  rcases breakpoints_min_cases inside (d := d) with ⟨far, -⟩ | ⟨t, near, ⟨i, meets⟩, -⟩
  · exact far ▸ EReal.zero_lt_top
  · exact near ▸ EReal.coe_pos.2 meets.pos

theorem breakpoints_min_le_max (x d : Vec EReal n) : (box.breakpoints x d).min ≤ (box.breakpoints x d).max := by
  by_cases still : ∀ i, box.breakpoint? x d i = none
  · have nothing : (List.finRange n).filterMap (box.breakpoint? x d) = [] :=
      List.filterMap_eq_nil_iff.2 fun i _ => still i
    simp [breakpoints, nothing]
  · obtain ⟨i, moves⟩ := not_forall.1 still
    obtain ⟨b, meets⟩ := Option.ne_none_iff_exists'.1 moves
    exact (breakpoints_min_le meets).trans (le_breakpoints_max meets)

include inside in
/-- A variable is on the bound ahead of it from its breakpoint on. -/
theorem Meets.isAhead_iff (meets : box.Meets x d i b) (nonneg : 0 ≤ t) :
    box.IsAhead d (box.project (Vec.ofReal (x + t • d))) i ↔ b ≤ t := by
  obtain ⟨c, near, -, -, gone⟩ := exists_path_eq inside nonneg i (d := d)
  have reached : c = b ↔ b ≤ t := by
    rw [meets.reach_eq, ← EReal.coe_strictMono.monotone.map_min, EReal.coe_eq_coe_iff] at near
    rw [near, min_eq_right_iff]
  rw [IsAhead, get_project_eq_path inside, gone, ← reached]
  rcases meets with ⟨down, -, on⟩ | ⟨up, -, on⟩
  · rw [← on, EReal.coe_eq_coe_iff, add_right_inj, mul_left_inj' down.ne]
    simp [down, down.not_gt]
  · rw [← on, EReal.coe_eq_coe_iff, add_right_inj, mul_left_inj' up.ne']
    simp [up, up.not_gt]

/-! ### The last breakpoint -/

/-- Backwards, the path is the one of the opposite direction. -/
theorem path_neg (box : Box EReal n) (x d : Fin n → ℝ) (t : ℝ) : box.path x d t = box.path x (-d) (-t) := by
  funext i
  rw [path, path, Pi.neg_apply, neg_mul_neg]

include inside in
/-- Before the breakpoint of one of its variables, the path is somewhere else. -/
theorem Meets.path_ne (meets : box.Meets x d i b) (before : t < b) : box.path x d t i ≠ box.path x d b i := by
  have moves : d i ≠ 0 := by
    rcases meets with ⟨down, -⟩ | ⟨up, -⟩
    · exact down.ne
    · exact up.ne'
  have there : box.path x d b i = b * d i := path_eq_mul inside meets.pos.le meets.reach_eq.ge
  intro same
  rcases le_or_gt 0 t with forth | back
  · have here : box.path x d t i = t * d i :=
      path_eq_mul inside forth (meets.reach_eq ▸ EReal.coe_le_coe_iff.2 before.le)
    rw [here, there] at same
    exact before.ne (mul_right_cancel₀ moves same)
  · obtain ⟨c, -, nonneg, -, here⟩ := exists_path_eq inside (neg_nonneg.2 back.le) i (d := -d)
    rw [path_neg, here, there, Pi.neg_apply, mul_neg, ← neg_mul] at same
    have opposite := mul_right_cancel₀ moves same
    linarith [meets.pos]

include inside in
/-- **The last breakpoint**, if it is finite, is the length from which on the step does not change. -/
theorem path_eq_iff (last : (box.breakpoints (Vec.ofReal x) (Vec.ofReal d)).max = b) :
    box.path x d t = box.path x d b ↔ b ≤ t := by
  have positive : 0 < (box.breakpoints (Vec.ofReal x) (Vec.ofReal d)).max :=
    (breakpoints_min_pos inside).trans_le (breakpoints_min_le_max _ _)
  have counted : 0 < (box.breakpoints (Vec.ofReal x) (Vec.ofReal d)).count := by
    by_contra nothing
    rw [breakpoints_count, List.length_pos_iff, not_not] at nothing
    rw [breakpoints, nothing] at last
    exact EReal.coe_ne_top b last.symm
  constructor
  · intro same
    by_contra before
    obtain ⟨i, meets⟩ := breakpoints_max_mem counted positive
    rw [last] at meets
    exact (breakpoint?_eq_some.1 meets).path_ne inside (not_le.1 before) (congrFun same i)
  · intro after
    rw [last, EReal.coe_pos] at positive
    exact path_eq_of_max_le inside positive.le last.le after

/-! ### The breakpoints and the steps -/

/-- What breakpoints say about the projected steps along a direction. -/
structure Breakpoints.DescribesSteps (brk : Breakpoints EReal) (box : Box EReal n) (x d : Fin n → ℝ) : Prop where
  /-- The variables that move are counted. -/
  count : brk.count = {i | box.Leaves x d i}.ncard
  min_pos : 0 < brk.min
  min_le_max : brk.min ≤ brk.max
  /-- Up to the first breakpoint, the variables that move follow the direction. -/
  follows : ∀ t : ℝ, 0 ≤ t → (t : EReal) ≤ brk.min → ∀ i, box.Leaves x d i →
    (box.projectedStep (Vec.ofReal x) (Vec.ofReal d) t).get i = ((t * d i : ℝ) : EReal)
  /-- The others stay. -/
  stays : ∀ t : ℝ, 0 ≤ t → ∀ i, ¬ box.Leaves x d i →
    (box.projectedStep (Vec.ofReal x) (Vec.ofReal d) t).get i = 0
  /-- At the first breakpoint, and not before, one of the variables gets to the bound ahead of it. -/
  lands : ∀ b : ℝ, brk.min = b → ∃ i, box.Leaves x d i ∧ ∀ t : ℝ, 0 ≤ t →
    (box.IsAhead d (box.project (Vec.ofReal (x + t • d))) i ↔ b ≤ t)
  /-- From the last breakpoint on, and not before, the step is the same. -/
  settles : ∀ b : ℝ, brk.max = b → ∀ t : ℝ,
    (box.projectedStep (Vec.ofReal x) (Vec.ofReal d) t =
      box.projectedStep (Vec.ofReal x) (Vec.ofReal d) b ↔ b ≤ t)
  /-- Without breakpoints there is no step. -/
  rests : brk.count = 0 → ∀ t : ℝ, 0 ≤ t →
    box.projectedStep (Vec.ofReal x) (Vec.ofReal d) t = Vec.zeros n

/-- **The breakpoints describe the path.** From a point of the box and along any direction. -/
theorem breakpoints_describe (inside : box.Contains (Vec.ofReal x)) (d : Fin n → ℝ) :
    (box.breakpoints (Vec.ofReal x) (Vec.ofReal d)).DescribesSteps box x d where
  count := breakpoints_count_eq_ncard inside
  min_pos := breakpoints_min_pos inside
  min_le_max := breakpoints_min_le_max _ _
  follows t nonneg before i leaves := by
    have open' := (not_or.1 ((leaves_iff inside).1 leaves)).2
    rw [projectedStep_eq_path inside, Vec.get_ofReal, path_eq_smul inside nonneg before, Pi.smul_apply,
      movable, if_neg open', smul_eq_mul]
  stays t nonneg i stays := by
    rw [projectedStep_eq_path inside, Vec.get_ofReal, EReal.coe_eq_zero]
    rw [leaves_iff inside, not_not, ← breakpoint?_eq_none] at stays
    exact path_eq_zero_of_none inside stays nonneg
  lands b first := by
    rcases breakpoints_min_cases inside (d := d) with ⟨far, -⟩ | ⟨t, near, ⟨i, meets⟩, -⟩
    · exact absurd (first.symm.trans far) (EReal.coe_ne_top b)
    · obtain rfl : b = t := EReal.coe_injective (first.symm.trans near)
      refine ⟨i, (isSome_breakpoint?_iff inside).1 ?_, fun t nonneg => meets.isAhead_iff inside nonneg⟩
      rw [breakpoint?_eq_some.2 meets]
      rfl
  settles b last t := by
    rw [projectedStep_eq_path inside, projectedStep_eq_path inside, Vec.ofReal_injective.eq_iff,
      path_eq_iff inside last]
  rests none t nonneg := by
    rw [projectedStep_eq_path inside, path_eq_zero inside nonneg none.not_gt, Vec.zeros_eq_ofReal]

/-! ### A corridor -/

/-- The points of the positive octant whose first entry is at most one. -/
noncomputable def corridor : Box EReal 3 where
  lower _ := 0
  upper i := if i.val = 0 then 1 else ⊤
  ordered i := by split <;> simp

theorem corridor_inside : corridor.Contains (Vec.ofReal 0) := by
  intro i
  rw [Vec.get_ofReal, Pi.zero_apply, EReal.coe_zero]
  exact ⟨le_rfl, corridor.ordered i⟩

/-- From the corner at zero, the first variable meets its bound, the second has none ahead, and the third is
blocked. -/
theorem corridor_breakpoints :
    corridor.breakpoints (Vec.ofReal 0) (Vec.ofReal ![2, 3, -1]) = ⟨2, ((1 / 2 : ℝ) : EReal), ⊤⟩ := by
  have all : List.finRange 3 = [0, 1, 2] := rfl
  have first : corridor.breakpoint? (Vec.ofReal 0) (Vec.ofReal ![2, 3, -1]) 0 =
      some ((1 / 2 : ℝ) : EReal) := by
    refine breakpoint?_eq_some.2 (.inr ⟨by simp, by simp [corridor], ?_⟩)
    norm_num [corridor]
  have second : corridor.breakpoint? (Vec.ofReal 0) (Vec.ofReal ![2, 3, -1]) 1 = some ⊤ := by
    rw [breakpoint?_of_pos (by simp) (by simp [corridor])]
    have three : (0 : EReal) < ((3 : ℝ) : EReal) := EReal.coe_pos.2 (by norm_num)
    simpa [corridor] using EReal.top_div_of_pos_ne_top three (EReal.coe_ne_top 3)
  have third : corridor.breakpoint? (Vec.ofReal 0) (Vec.ofReal ![2, 3, -1]) 2 = none :=
    breakpoint?_eq_none.2 (.inr (.inl ⟨by simp, by simp [corridor]⟩))
  simp [breakpoints, all, first, second, third]

/-- The breakpoints in the corridor describe its paths. -/
theorem breakpoints_describe_corridor :
    corridor.Contains (Vec.ofReal 0) ∧
      (⟨2, ((1 / 2 : ℝ) : EReal), ⊤⟩ : Breakpoints EReal).DescribesSteps corridor 0 ![2, 3, -1] :=
  ⟨corridor_inside, corridor_breakpoints ▸ breakpoints_describe corridor_inside _⟩

end Box

end BoxNewton

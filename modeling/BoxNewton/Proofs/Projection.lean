import Mathlib
import BoxNewton.Domain
import BoxNewton.Proofs.ExactNumbers

/-!
# The projection into a box

The projection is written twice: once with comparisons, where it also tells whether it moved anything, and
once with the selections of the larger and the smaller, inside the projected step. A restricted box carries
a copy of the bounds. Here the three are shown to be one map, the one to the nearest point of the box.

In rounded arithmetic distances are of no use, so "nearest" is said by the order alone: what is next to `x`
in an interval lies between `x` and whatever else there is in the interval (`Box.IsNearest`). That settles
the point up to the sign of a zero (`Box.IsNearest.agree`), and over exact numbers it says that every other
point of the interval is further away (`Box.IsNearest.abs_sub_lt`).

Nothing is asked of a point but that its entries are numbers; infinite ones are, and bounds may be infinite
or coincide. All of this holds of every domain however it was made, because a domain carries the order of
its bounds (`Domain.projection_laws`).
-/

set_option autoImplicit false

namespace BoxNewton

/-! ## One variable -/

namespace Box

/-- The point of an interval next to `x` lies between `x` and whatever else is in the interval. -/
structure IsNearest {α : Type} [Scalar α] (lo hi x p : α) : Prop where
  mem : lo ≤ p ∧ p ≤ hi
  between : ∀ y, lo ≤ y → y ≤ hi → (x ≤ p ∧ p ≤ y) ∨ (y ≤ p ∧ p ≤ x)

section Order

variable {α : Type} [Scalar α] [Scalar.LawfulOrder α] {lo hi x p q : α}

/-- There is one nearest point, up to the sign of a zero. -/
theorem IsNearest.agree (first : IsNearest lo hi x p) (second : IsNearest lo hi x q) : Scalar.Agree p q := by
  have trans {a b c : α} (ab : a ≤ b) (bc : b ≤ c) : a ≤ c := Scalar.LawfulOrder.le_trans ab bc
  rcases first.between q second.mem.1 second.mem.2 with ⟨xp, pq⟩ | ⟨qp, px⟩
  · rcases second.between p first.mem.1 first.mem.2 with ⟨xq, qp⟩ | ⟨-, qx⟩
    · exact ⟨pq, qp⟩
    · exact ⟨pq, trans qx xp⟩
  · rcases second.between p first.mem.1 first.mem.2 with ⟨xq, -⟩ | ⟨pq, -⟩
    · exact ⟨trans px xq, qp⟩
    · exact ⟨pq, qp⟩

theorem isNearest_clamp (ordered : lo ≤ hi) (number : Scalar.IsNumber x) :
    IsNearest lo hi x (clamp lo hi x) := by
  have numberLo := Scalar.LawfulOrder.number_left ordered
  have numberHi := Scalar.LawfulOrder.number_right ordered
  by_cases below : x < lo
  · rw [clamp, if_pos below]
    exact ⟨⟨numberLo, ordered⟩, fun y above _ => .inl ⟨(Scalar.LawfulOrder.lt_iff.1 below).1, above⟩⟩
  · rw [clamp, if_neg below]
    by_cases above : hi < x
    · rw [if_pos above]
      exact ⟨⟨ordered, numberHi⟩, fun y _ below => .inr ⟨below, (Scalar.LawfulOrder.lt_iff.1 above).1⟩⟩
    · rw [if_neg above]
      refine ⟨⟨Scalar.le_of_not_lt numberLo number below, Scalar.le_of_not_lt number numberHi above⟩, ?_⟩
      intro y within _
      rcases Scalar.LawfulOrder.le_total number (Scalar.LawfulOrder.number_right within) with le | ge
      · exact .inl ⟨number, le⟩
      · exact .inr ⟨ge, number⟩

/-- The two ways to write the projection agree. -/
theorem smaller_larger_eq_clamp (ordered : lo ≤ hi) (number : Scalar.IsNumber x) :
    Scalar.smaller (Scalar.larger x lo) hi = clamp lo hi x := by
  rw [Scalar.larger, clamp, if_pos number]
  by_cases below : x < lo
  · rw [if_pos below, if_pos below, Scalar.smaller, if_neg (Scalar.not_lt_of_le ordered),
      if_pos (Scalar.LawfulOrder.number_left ordered)]
  · rw [if_neg below, if_neg below, Scalar.smaller, if_pos number]

theorem isOutside_iff (ordered : lo ≤ hi) (number : Scalar.IsNumber x) :
    IsOutside lo hi x ↔ ¬ (lo ≤ x ∧ x ≤ hi) := by
  constructor
  · rintro (below | above) within
    · exact Scalar.not_lt_of_le within.1 below
    · exact Scalar.not_lt_of_le within.2 above
  · intro out
    by_contra within
    obtain ⟨notBelow, notAbove⟩ := not_or.1 within
    exact out ⟨Scalar.le_of_not_lt (Scalar.LawfulOrder.number_left ordered) number notBelow,
      Scalar.le_of_not_lt number (Scalar.LawfulOrder.number_right ordered) notAbove⟩

end Order

theorem abs_coe_sub_coe (a b : ℝ) : Scalar.abs ((a : EReal) - (b : EReal)) = ((|a - b| : ℝ) : EReal) := by
  rw [← EReal.coe_sub, Scalar.abs_coe]

/-- Over exact numbers, whatever else is in the interval is further away. -/
theorem IsNearest.abs_sub_lt {lo hi p y : EReal} {x : ℝ} (near : IsNearest lo hi (x : EReal) p)
    (above : lo ≤ y) (below : y ≤ hi) (other : y ≠ p) :
    Scalar.abs (p - (x : EReal)) < Scalar.abs (y - (x : EReal)) := by
  rcases near.between y above below with ⟨here, there⟩ | ⟨there, here⟩
  · have less : p < y := lt_of_le_of_ne there other.symm
    lift p to ℝ using ⟨(less.trans_le le_top).ne, (lt_of_lt_of_le (EReal.bot_lt_coe x) here).ne'⟩
    induction y with
    | bot => exact absurd less not_lt_bot
    | top =>
        rw [abs_coe_sub_coe, EReal.top_sub_coe, Scalar.abs, if_neg (not_lt.2 le_top)]
        exact EReal.coe_lt_top _
    | coe y =>
        rw [EReal.coe_le_coe_iff] at here
        rw [EReal.coe_lt_coe_iff] at less
        rw [abs_coe_sub_coe, abs_coe_sub_coe, EReal.coe_lt_coe_iff, abs_of_nonneg (by linarith),
          abs_of_nonneg (by linarith)]
        linarith
  · have less : y < p := lt_of_le_of_ne there other
    lift p to ℝ using ⟨(lt_of_le_of_lt here (EReal.coe_lt_top x)).ne, (lt_of_le_of_lt bot_le less).ne'⟩
    induction y with
    | bot =>
        rw [abs_coe_sub_coe, EReal.bot_sub, Scalar.abs, if_pos EReal.bot_lt_zero, EReal.neg_bot]
        exact EReal.coe_lt_top _
    | top => exact absurd less not_top_lt
    | coe y =>
        rw [EReal.coe_le_coe_iff] at here
        rw [EReal.coe_lt_coe_iff] at less
        rw [abs_coe_sub_coe, abs_coe_sub_coe, EReal.coe_lt_coe_iff, abs_of_nonpos (by linarith),
          abs_of_nonpos (by linarith)]
        linarith

/-! ## Points -/

section Points

variable {α : Type} [Scalar α] {n : Nat} {box : Box α n} {x : Vec α n}

theorem gather_project (box : Box α n) (set : IndexSet (Fin n)) (x : Vec α n) :
    (box.restrict set).project (set.gather x) = set.gather (box.project x) := by
  apply Vec.ext_get
  intro k
  simp [restrict]

theorem contains_gather (set : IndexSet (Fin n)) (inside : box.Contains x) :
    (box.restrict set).Contains (set.gather x) := by
  intro k
  rw [IndexSet.get_gather]
  exact inside (set.index k)

theorem gather_projectedStep (box : Box α n) (set : IndexSet (Fin n)) (x d : Vec α n) (t : α) :
    (box.restrict set).projectedStep (set.gather x) (set.gather d) t =
      set.gather (box.projectedStep x d t) := by
  apply Vec.ext_get
  intro k
  simp [restrict]

variable [Scalar.LawfulOrder α] (numbers : ∀ i, Scalar.IsNumber (x.get i))

include numbers

theorem contains_project : box.Contains (box.project x) := by
  intro i
  rw [get_project]
  exact (isNearest_clamp (box.ordered i) (numbers i)).mem

theorem moves_iff : box.Moves x ↔ ¬ box.Contains x := by
  rw [Moves, Contains, not_forall]
  exact exists_congr fun i => isOutside_iff (box.ordered i) (numbers i)

omit numbers in
/-- The projected step leads to the projection of the target. -/
theorem projectedStep_eq_project {d : Vec α n} {t : α}
    (targets : ∀ i, Scalar.IsNumber (x.get i + t * d.get i)) :
    box.projectedStep x d t = box.project (Vector.ofFn fun i => x.get i + t * d.get i) - x := by
  apply Vec.ext_get
  intro i
  rw [get_projectedStep, Vec.get_sub, get_project, Vec.get_ofFn,
    smaller_larger_eq_clamp (box.ordered i) (targets i)]

end Points

end Box

/-! ## Domains -/

namespace Domain

variable {α : Type} [Scalar α] (dom : Domain α)

/-- The domain of the selected variables. -/
abbrev part (set : IndexSet (Fin dom.dim)) (nonempty : 0 < set.size) : Domain α :=
  ⟨set.size, nonempty, dom.box.restrict set⟩

theorem restrict?_eq {set : IndexSet (Fin dom.dim)} (nonempty : 0 < set.size) :
    dom.restrict? set = .ok (dom.part set nonempty) := dif_pos nonempty

/-! ### Points that come as arrays -/

theorem getElem?_toArray (x : Vec α dom.dim) (i : Fin dom.dim) : x.toArray[i.val]? = some (x.get i) := by
  simp [Vec.get_eq_getElem]

theorem admits_toArray (x : Vec α dom.dim) : dom.admits x.toArray = decide (dom.box.Contains x) := by
  rw [Bool.eq_iff_iff, admits, List.all_eq_true, decide_eq_true_eq]
  simp only [getElem?_toArray, decide_eq_true_eq, List.mem_finRange, true_imp_iff, Box.Contains]

theorem movesArray_toArray (x : Vec α dom.dim) : dom.movesArray x.toArray = decide (dom.box.Moves x) := by
  rw [Bool.eq_iff_iff, movesArray, List.any_eq_true, decide_eq_true_eq]
  simp only [getElem?_toArray, decide_eq_true_eq, List.mem_finRange, true_and, Box.Moves]

theorem projectArray_toArray (x : Vec α dom.dim) :
    dom.projectArray x.toArray = (dom.box.project x).toArray := by
  apply Array.ext
  · simp [projectArray]
  · intro i _ within
    rw [Vector.size_toArray] at within
    simp [projectArray, Box.project, within, Vec.get_eq_getElem]

/-! ### What a projection does -/

/-- What the projection into a domain does to a point, and what it has to do with the steps from there and
with the parts of the domain. -/
structure ProjectsNearest (dom : Domain α) (x : Vec α dom.dim) : Prop where
  /-- The point as an array is projected like the vector. -/
  same : dom.projectArray x.toArray = (dom.box.project x).toArray
  feasible : dom.admits (dom.projectArray x.toArray) = true
  nearest : ∀ i, Box.IsNearest (dom.box.lower i) (dom.box.upper i) (x.get i) ((dom.box.project x).get i)
  /-- Nothing else is nearest. -/
  unique : ∀ i p, Box.IsNearest (dom.box.lower i) (dom.box.upper i) (x.get i) p →
    Scalar.Agree p ((dom.box.project x).get i)
  /-- A feasible point stays. -/
  keeps : dom.admits x.toArray = true → dom.projectArray x.toArray = x.toArray
  /-- The projection tells whether the point was feasible. -/
  tells : dom.movesArray x.toArray = !dom.admits x.toArray
  /-- Projecting again does nothing, and says so. -/
  again : dom.projectArray (dom.projectArray x.toArray) = dom.projectArray x.toArray
  done : dom.movesArray (dom.projectArray x.toArray) = false
  /-- The projected step leads to the projection of its target. -/
  step : ∀ (d : Vec α dom.dim) (t : α), (∀ i, Scalar.IsNumber (x.get i + t * d.get i)) →
    dom.box.projectedStep x d t = dom.box.project (Vector.ofFn fun i => x.get i + t * d.get i) - x
  /-- In a part of the domain, the part of the point is projected to the part of the projection. -/
  restricts : ∀ (set : IndexSet (Fin dom.dim)) (nonempty : 0 < set.size),
    dom.restrict? set = .ok (dom.part set nonempty) ∧
      (dom.part set nonempty).projectArray (set.gather x).toArray = (set.gather (dom.box.project x)).toArray ∧
      (dom.admits x.toArray = true → (dom.part set nonempty).admits (set.gather x).toArray = true) ∧
      ∀ (d : Vec α dom.dim) (t : α),
        (dom.part set nonempty).box.projectedStep (set.gather x) (set.gather d) t =
          set.gather (dom.box.projectedStep x d t)

theorem projectsNearest [Scalar.LawfulOrder α] {x : Vec α dom.dim} (numbers : ∀ i, Scalar.IsNumber (x.get i)) :
    dom.ProjectsNearest x where
  same := dom.projectArray_toArray x
  feasible := by
    rw [projectArray_toArray, admits_toArray, decide_eq_true_eq]
    exact Box.contains_project numbers
  nearest i := by
    rw [Box.get_project]
    exact Box.isNearest_clamp (dom.box.ordered i) (numbers i)
  unique i p near := by
    rw [Box.get_project]
    exact near.agree (Box.isNearest_clamp (dom.box.ordered i) (numbers i))
  keeps inside := by
    rw [admits_toArray, decide_eq_true_eq] at inside
    rw [projectArray_toArray, Box.project_of_holds fun i _ => inside i]
  tells := by
    rw [movesArray_toArray, admits_toArray, ← decide_not, decide_eq_decide]
    exact Box.moves_iff numbers
  again := by
    rw [projectArray_toArray, projectArray_toArray, Box.project_project]
  done := by
    have inside : dom.box.Contains (dom.box.project x) := Box.contains_project numbers
    rw [projectArray_toArray, movesArray_toArray, decide_eq_false_iff_not,
      Box.moves_iff fun i => Scalar.LawfulOrder.number_right (inside i).1, not_not]
    exact inside
  step d t targets := Box.projectedStep_eq_project targets
  restricts set nonempty := by
    refine ⟨dom.restrict?_eq nonempty, ?_, ?_, fun d t => dom.box.gather_projectedStep set x d t⟩
    · exact ((dom.part set nonempty).projectArray_toArray _).trans
        (congrArg Vector.toArray (dom.box.gather_project set x))
    · intro inside
      rw [admits_toArray, decide_eq_true_eq] at inside
      exact ((dom.part set nonempty).admits_toArray (set.gather x)).trans
        (decide_eq_true (Box.contains_gather set inside))

/-- **The projection is the map to the nearest point**, and projected steps and restricted domains go by the
same projection. The first part is about every arithmetic; over exact numbers, whatever else is in the
domain is further away in each entry where it differs, and nothing has to be asked of a step. -/
theorem projection_laws :
    (∀ (α : Type) [Scalar α] [Scalar.LawfulOrder α] (dom : Domain α) (x : Vec α dom.dim),
      (∀ i, Scalar.IsNumber (x.get i)) → dom.ProjectsNearest x) ∧
    (∀ (dom : Domain EReal) (x : Fin dom.dim → ℝ) (y : Vec EReal dom.dim), dom.box.Contains y →
      ∀ i, y.get i ≠ (dom.box.project (Vec.ofReal x)).get i →
        Scalar.abs ((dom.box.project (Vec.ofReal x)).get i - (x i : EReal)) <
          Scalar.abs (y.get i - (x i : EReal))) ∧
    ∀ (dom : Domain EReal) (x d : Vec EReal dom.dim) (t : EReal),
      dom.box.projectedStep x d t =
        dom.box.project (Vector.ofFn fun i => x.get i + t * d.get i) - x := by
  refine ⟨fun α _ _ dom x numbers => dom.projectsNearest numbers, ?_, ?_⟩
  · intro dom x y inside i other
    have near := (dom.projectsNearest (x := Vec.ofReal x) fun _ => Scalar.isNumber _).nearest i
    rw [Vec.get_ofReal] at near
    exact near.abs_sub_lt (inside i).1 (inside i).2 other
  · exact fun dom x d t => Box.projectedStep_eq_project fun _ => Scalar.isNumber _

/-! ### Points beyond a bound -/

/-- The floating-point numbers between zero and one. -/
def unitInterval : Domain Float := ⟨1, Nat.one_pos, ⟨fun _ => 0.0, fun _ => 1.0, fun _ => by decide⟩⟩

/-- The extended real numbers that are not negative. -/
noncomputable def halfLine : Domain EReal := ⟨1, Nat.one_pos, ⟨fun _ => 0, fun _ => ⊤, fun _ => le_top⟩⟩

theorem halfLine_contains : halfLine.box.Contains (Vec.ofReal fun _ => 1) := by
  intro i
  rw [Vec.get_ofReal]
  exact ⟨EReal.coe_nonneg.2 zero_le_one, le_top⟩

theorem halfLine_project (i : Fin halfLine.dim) : (halfLine.box.project (Vec.ofReal fun _ => -1)).get i = 0 := by
  have below : ((-1 : ℝ) : EReal) < 0 := EReal.coe_neg'.2 (by norm_num)
  rw [Box.get_project, Vec.get_ofReal, Box.clamp]
  exact if_pos below

/-- A floating-point number beyond the upper bound is moved once, and the end of a half-line is next to the
numbers before it. -/
theorem projection_laws_beyond :
    (∀ i, Scalar.IsNumber ((Vector.replicate 1 2.5 : Vec Float unitInterval.dim).get i)) ∧
      unitInterval.movesArray (Vector.replicate 1 2.5 : Vec Float unitInterval.dim).toArray = true ∧
      unitInterval.movesArray
        (unitInterval.projectArray (Vector.replicate 1 2.5 : Vec Float unitInterval.dim).toArray) = false ∧
      halfLine.box.Contains (Vec.ofReal fun _ => 1) ∧
      Scalar.abs (0 - ((-1 : ℝ) : EReal)) < Scalar.abs (((1 : ℝ) : EReal) - ((-1 : ℝ) : EReal)) := by
  have numbers : ∀ i, Scalar.IsNumber ((Vector.replicate 1 2.5 : Vec Float unitInterval.dim).get i) := by
    decide
  have laws := projection_laws.1 Float unitInterval (Vector.replicate 1 2.5) numbers
  have further := projection_laws.2.1 halfLine (fun _ => -1) (Vec.ofReal fun _ => 1) halfLine_contains
    ⟨0, Nat.one_pos⟩
  rw [halfLine_project, Vec.get_ofReal] at further
  exact ⟨numbers, laws.tells.trans (by decide), laws.done, halfLine_contains, further (by simp)⟩

end Domain

end BoxNewton

import Mathlib
import BoxNewton.Proofs.PathSteps

/-!
# Infinity in exact arithmetic

On the extended real line every operation has an answer; in particular infinity times zero is zero. In
floating-point arithmetic such an operation has none, and what it gives is not a number. `Extended` adds
this value to the extended real line. Its operations are those of the extended real line where
floating-point arithmetic has an answer, without rounding; infinity less infinity, infinity times zero,
zero or infinity divided by itself and the square root of a negative number are not numbers, and what is
not a number compares with nothing. Zero has no sign here, so a positive number divided by zero is
infinite.

For real data little of this is seen. Norms are numbers (`Vec.norm_numbers`), and breakpoints and steps of
real length are those of the extended real line (`Box.breakpoints_numbers`, `Box.projectedStep_numbers`).
At an infinite length, a variable along which the direction is zero is moved by what is not a number, and
the projection takes it to its lower bound; any other variable reaches the bound ahead of it. So the step
has numbers for its entries, and it is infinitely long if one of these bounds is not there
(`Box.exists_step_top`).
-/

set_option autoImplicit false

namespace BoxNewton

/-- The extended real numbers, and what is not a number. -/
inductive Extended where
  | number (x : EReal)
  | invalid

namespace Extended

/-- The sum of opposite infinities is not a number. -/
noncomputable def add : Extended → Extended → Extended
  | number x, number y =>
    open Classical in if x = ⊤ ∧ y = ⊥ ∨ x = ⊥ ∧ y = ⊤ then invalid else number (x + y)
  | _, _ => invalid

noncomputable def neg : Extended → Extended
  | number x => number (-x)
  | invalid => invalid

/-- The product of zero and an infinity is not a number. -/
noncomputable def mul : Extended → Extended → Extended
  | number x, number y =>
    open Classical in
    if x = 0 ∧ (y = ⊤ ∨ y = ⊥) ∨ (x = ⊤ ∨ x = ⊥) ∧ y = 0 then invalid else number (x * y)
  | _, _ => invalid

/-- The quotient of two zeros or of two infinities is not a number. Any other quotient by zero is infinite,
with the sign of what is divided. -/
noncomputable def div : Extended → Extended → Extended
  | number x, number y =>
    open Classical in
    if x = 0 ∧ y = 0 ∨ (x = ⊤ ∨ x = ⊥) ∧ (y = ⊤ ∨ y = ⊥) then invalid
    else if y = 0 then number (if 0 < x then ⊤ else ⊥)
    else number (x / y)
  | _, _ => invalid

noncomputable def sqrt : Extended → Extended
  | number x => open Classical in if x < 0 then invalid else number (extendedSqrt x)
  | invalid => invalid

/-- What is not a number is not below anything. -/
def lt : Extended → Extended → Prop
  | number x, number y => x < y
  | _, _ => False

def le : Extended → Extended → Prop
  | number x, number y => x ≤ y
  | _, _ => False

/-- The extended real numbers and what is not a number, with the round-off constants of double
precision. -/
noncomputable instance instScalarExtended : Scalar Extended where
  add := add
  sub x y := add x (neg y)
  mul := mul
  div := div
  neg := neg
  zero := number 0
  one := number 1
  ofScientific m s e := number (OfScientific.ofScientific m s e)
  lt := lt
  le := le
  decideLT := Classical.decRel _
  decideLE := Classical.decRel _
  sqrt := sqrt
  infinity := number ⊤
  epsilon := number Scalar.epsilon
  sqrtEpsilon := number Scalar.sqrtEpsilon
  cbrtEpsilon := number Scalar.cbrtEpsilon
  tinyStep := number Scalar.tinyStep
  neg_infinity_le_infinity := le_top

/-! ## Numbers -/

variable {x y : EReal} {a b : ℝ}

theorem zero_eq : (0 : Extended) = number 0 := rfl

theorem tinyStep_eq : (Scalar.tinyStep : Extended) = number Scalar.tinyStep := rfl

theorem ofScientific_eq (m : Nat) (s : Bool) (e : Nat) :
    (OfScientific.ofScientific m s e : Extended) = number (OfScientific.ofScientific m s e) := rfl

@[simp] theorem number_lt : number x < number y ↔ x < y := Iff.rfl

@[simp] theorem number_le : number x ≤ number y ↔ x ≤ y := Iff.rfl

/-- What compares with a number is one. -/
theorem exists_of_number_lt {u : Extended} (less : number x < u) : ∃ y, u = number y ∧ x < y := by
  cases u with
  | invalid => exact less.elim
  | number y => exact ⟨y, rfl, less⟩

theorem exists_number_of_le {u v : Extended} (below : u ≤ v) :
    ∃ x y, u = number x ∧ v = number y ∧ x ≤ y := by
  cases u with
  | invalid => exact below.elim
  | number x =>
      cases v with
      | invalid => exact below.elim
      | number y => exact ⟨x, y, rfl, rfl, below⟩

theorem isNumber (x : EReal) : Scalar.IsNumber (number x) := le_refl x

instance : Scalar.LawfulOrder Extended where
  number_left below := by
    obtain ⟨x, _, rfl, -⟩ := exists_number_of_le below
    exact isNumber x
  number_right below := by
    obtain ⟨_, y, -, rfl, -⟩ := exists_number_of_le below
    exact isNumber y
  le_trans below above := by
    obtain ⟨x, y, rfl, rfl, first⟩ := exists_number_of_le below
    obtain ⟨_, z, same, rfl, second⟩ := exists_number_of_le above
    cases same
    exact number_le.2 (first.trans second)
  le_total left right := by
    obtain ⟨x, _, rfl, -⟩ := exists_number_of_le left
    obtain ⟨y, _, rfl, -⟩ := exists_number_of_le right
    exact LinearOrder.le_total x y
  lt_iff {u v} := by
    cases u with
    | invalid => exact iff_of_false (fun less => less) fun both => both.1
    | number x =>
        cases v with
        | invalid => exact iff_of_false (fun less => less) fun both => both.1
        | number y => exact lt_iff_le_not_ge (a := x) (b := y)

@[simp] theorem neg_number (x : EReal) : -number x = number (-x) := rfl

theorem add_of_not (answered : ¬ (x = ⊤ ∧ y = ⊥ ∨ x = ⊥ ∧ y = ⊤)) :
    number x + number y = number (x + y) := if_neg answered

@[simp] theorem add_coe (x : EReal) (a : ℝ) : number x + number a = number (x + a) :=
  add_of_not (by simp)

@[simp] theorem coe_add (a : ℝ) (x : EReal) : number a + number x = number (a + x) :=
  add_of_not (by simp)

@[simp] theorem sub_coe (x : EReal) (a : ℝ) : number x - number a = number (x - a) :=
  add_coe x (-a)

@[simp] theorem add_invalid (u : Extended) : u + invalid = invalid := by
  cases u <;> rfl

theorem mul_of_not (answered : ¬ (x = 0 ∧ (y = ⊤ ∨ y = ⊥) ∨ (x = ⊤ ∨ x = ⊥) ∧ y = 0)) :
    number x * number y = number (x * y) := if_neg answered

@[simp] theorem coe_mul (a b : ℝ) : number a * number b = number (a * b) :=
  mul_of_not (by simp)

theorem mul_self (x : EReal) : number x * number x = number (x * x) := by
  refine mul_of_not ?_
  rintro (⟨rfl, infinite⟩ | ⟨infinite, rfl⟩)
  · simp at infinite
  · simp at infinite

theorem mul_self_nonneg (x : EReal) : 0 ≤ x * x := by
  rcases le_total 0 x with nonneg | nonpos
  · exact EReal.mul_nonneg_iff.2 (.inl ⟨nonneg, nonneg⟩)
  · exact EReal.mul_nonneg_iff.2 (.inr ⟨nonpos, nonpos⟩)

theorem mul_of_pos (hx : 0 < x) (hy : 0 < y) : number x * number y = number (x * y) :=
  mul_of_not (by simp [hx.ne', hy.ne'])

theorem top_mul_of_ne (moves : a ≠ 0) : number ⊤ * number a = number (⊤ * a) :=
  mul_of_not (by simp [moves])

theorem top_mul_zero : number ⊤ * number 0 = invalid := if_pos (by simp)

theorem div_coe (x : EReal) (nonzero : a ≠ 0) : number x / number a = number (x / a) := by
  have answered : ¬ (x = 0 ∧ (a : EReal) = 0 ∨
      (x = ⊤ ∨ x = ⊥) ∧ ((a : EReal) = ⊤ ∨ (a : EReal) = ⊥)) := by
    simp [nonzero]
  exact (if_neg answered).trans (if_neg (by simp [nonzero]))

theorem coe_div_top (a : ℝ) : number a / number ⊤ = number 0 := by
  have answered : ¬ ((a : EReal) = 0 ∧ (⊤ : EReal) = 0 ∨
      ((a : EReal) = ⊤ ∨ (a : EReal) = ⊥) ∧ ((⊤ : EReal) = ⊤ ∨ (⊤ : EReal) = ⊥)) := by
    simp
  refine ((if_neg answered).trans (if_neg EReal.top_ne_zero)).trans ?_
  rw [EReal.div_top]

theorem top_div_top : number ⊤ / number ⊤ = invalid := by
  have unanswered : (⊤ : EReal) = 0 ∧ (⊤ : EReal) = 0 ∨
      ((⊤ : EReal) = ⊤ ∨ (⊤ : EReal) = ⊥) ∧ ((⊤ : EReal) = ⊤ ∨ (⊤ : EReal) = ⊥) := by
    simp
  change div _ _ = _
  rw [div, if_pos unanswered]

theorem sqrt_of_nonneg (nonneg : 0 ≤ x) : Scalar.sqrt (number x) = number (Scalar.sqrt x) :=
  if_neg (not_lt.2 nonneg)

/-- A number that is not negative, and the extended real that it is. Sums of such numbers are numbers. -/
structure Represents (u : Extended) (x : EReal) : Prop where
  eq : u = number x
  nonneg : 0 ≤ x

theorem Represents.add {u v : Extended} (hu : u.Represents x) (hv : v.Represents y) :
    (u + v).Represents (x + y) where
  eq := by
    rw [hu.eq, hv.eq]
    refine add_of_not ?_
    rintro (⟨-, rfl⟩ | ⟨rfl, -⟩)
    · exact absurd hv.nonneg (not_le.2 EReal.bot_lt_zero)
    · exact absurd hu.nonneg (not_le.2 EReal.bot_lt_zero)
  nonneg := add_nonneg hu.nonneg hv.nonneg

/-! ### Selections -/

@[simp] theorem larger_number (x y : EReal) :
    Scalar.larger (number x) (number y) = number (max x y) := by
  rw [← Scalar.larger_eq_max]
  unfold Scalar.larger
  simp only [number_lt, Scalar.IsNumber, number_le, le_refl, if_true]
  split <;> rfl

@[simp] theorem smaller_number (x y : EReal) :
    Scalar.smaller (number x) (number y) = number (min x y) := by
  rw [← Scalar.smaller_eq_min]
  unfold Scalar.smaller
  simp only [number_lt, Scalar.IsNumber, number_le, le_refl, if_true]
  split <;> rfl

/-- A selection passes over what is not a number. -/
@[simp] theorem larger_invalid (u : Extended) : Scalar.larger invalid u = u := by
  have left : ¬ invalid < u := fun less => less
  have number : ¬ Scalar.IsNumber invalid := fun below => below
  rw [Scalar.larger, if_neg left, if_neg number]

theorem foldl_number {choose : Extended → Extended → Extended} {choose' : EReal → EReal → EReal}
    (chooses : ∀ x y, choose (number x) (number y) = number (choose' x y)) (steps : List EReal)
    (start : EReal) :
    (steps.map number).foldl choose (number start) = number (steps.foldl choose' start) := by
  induction steps generalizing start with
  | nil => rfl
  | cons first rest ih => rw [List.map_cons, List.foldl_cons, chooses, ih, List.foldl_cons]

end Extended

open Extended

/-! ## Vectors of numbers -/

namespace Vec

variable {n : Nat}

/-- A vector of extended real numbers, as one of numbers. -/
def numbers (v : Vec EReal n) : Vec Extended n := v.map number

@[simp] theorem get_numbers (v : Vec EReal n) (i : Fin n) : v.numbers.get i = number (v.get i) := by
  simp [numbers, get_eq_getElem]

@[simp] theorem neg_numbers (v : Vec EReal n) : -v.numbers = (-v).numbers :=
  ext_get fun i => by simp

/-- What two sums have in common if their terms do. -/
theorem fold_related {R : Extended → EReal → Prop}
    (adds : ∀ {u v x y}, R u x → R v y → R (u + v) (x + y)) {m : Nat}
    {term : (j : Nat) → j < m → EReal} {term' : (j : Nat) → j < m → Extended}
    (terms : ∀ j h, R (term' j h) (term j h)) {init : EReal} {init' : Extended} (start : R init' init) :
    R (Nat.fold m (fun j h total => total + term' j h) init')
      (Nat.fold m (fun j h total => total + term j h) init) := by
  induction m with
  | zero => exact start
  | succ m ih =>
      rw [Nat.fold_succ, Nat.fold_succ]
      exact adds (ih fun j h => terms j (Nat.lt_succ_of_lt h)) (terms m (Nat.lt_succ_self m))

theorem blockSum_related {R : Extended → EReal → Prop}
    (adds : ∀ {u v x y}, R u x → R v y → R (u + v) (x + y)) (zero : R 0 0) {term : Fin n → EReal}
    {term' : Fin n → Extended} (terms : ∀ i, R (term' i) (term i)) :
    R (blockSum term') (blockSum term) := by
  have lane : ∀ k, R (laneSum term' k) (laneSum term k) := fun k =>
    fold_related adds (fun _ _ => terms _) zero
  exact fold_related adds (fun _ _ => terms _) (adds (adds (adds (adds zero (adds (lane 0) (lane 4)))
    (adds (lane 1) (lane 5))) (adds (lane 2) (lane 6))) (adds (lane 3) (lane 7)))

/-- **Norms are numbers.** -/
theorem norm_numbers (v : Vec EReal n) : v.numbers.norm = number v.norm := by
  have squares : v.numbers.normSq.Represents v.normSq := by
    unfold normSq dot
    refine blockSum_related (R := Represents) Represents.add ⟨rfl, le_rfl⟩ fun i => ?_
    rw [get_numbers]
    exact ⟨mul_self _, mul_self_nonneg _⟩
  rw [norm, squares.eq, sqrt_of_nonneg squares.nonneg, norm]

/-- The inner product of real vectors is that of the extended real line. -/
theorem dot_numbers (u v : Fin n → ℝ) :
    (ofReal u).numbers.dot (ofReal v).numbers = number ((ofReal u).dot (ofReal v)) := by
  have real : ∃ a : ℝ, (ofReal u).dot (ofReal v) = a ∧
      (ofReal u).numbers.dot (ofReal v).numbers = number a := by
    refine blockSum_related (R := fun w x => ∃ a : ℝ, x = a ∧ w = number a) ?_ ⟨0, rfl, rfl⟩
      fun i => ?_
    · rintro _ _ _ _ ⟨a, rfl, rfl⟩ ⟨b, rfl, rfl⟩
      exact ⟨a + b, rfl, add_coe _ _⟩
    · rw [get_numbers, get_numbers, get_ofReal, get_ofReal, coe_mul]
      exact ⟨u i * v i, rfl, rfl⟩
  obtain ⟨a, same, product⟩ := real
  rw [same, product]

/-- A vector with an infinite entry is infinitely long. -/
theorem norm_of_infinite {v : Vec EReal n} {i : Fin n} (infinite : v.get i = ⊤ ∨ v.get i = ⊥) :
    v.norm = ⊤ := by
  have square : v.get i * v.get i = ⊤ := by
    rcases infinite with same | same
    · rw [same, EReal.top_mul_top]
    · rw [same, EReal.bot_mul_bot]
  have sum : v.normSq = ⊤ := by
    rw [normSq, dot, blockSum_eq_sum, eq_top_iff, ← square]
    exact Finset.single_le_sum (f := fun j => v.get j * v.get j) (fun j _ => mul_self_nonneg _)
      (Finset.mem_univ i)
  rw [norm, sum]
  rfl

end Vec

/-- For real data the test of sufficient decrease is the one over the reals. -/
theorem ModelValue.isInsufficient_numbers {n : Nat} (g s hs : Fin n → ℝ) (mu0 : ℝ) :
    (ofImage (Vec.ofReal g).numbers (Vec.ofReal s).numbers (Vec.ofReal hs).numbers).IsInsufficient
        (number mu0) ↔
      mu0 * (g ⬝ᵥ s) ≤ 1 / 2 * (s ⬝ᵥ hs) + g ⬝ᵥ s := by
  rw [← isInsufficient_ofReal]
  simp only [ofImage, IsInsufficient, Vec.dot_numbers, Vec.dot_ofReal, ofScientific_eq,
    Scalar.ofScientific_eq, coe_mul, ← EReal.coe_mul, coe_add, number_le]

/-! ## Boxes -/

namespace Box

variable {n : Nat}

/-- A box with extended real bounds, among the numbers. -/
def numbers (box : Box EReal n) : Box Extended n where
  lower i := number (box.lower i)
  upper i := number (box.upper i)
  ordered := box.ordered

/-- Bounds are numbers. -/
theorem exists_numbers (box : Box Extended n) : ∃ box' : Box EReal n, box = box'.numbers := by
  obtain ⟨lower, upper, ordered⟩ := box
  choose low high lower_eq upper_eq less using fun i => exists_number_of_le (ordered i)
  obtain rfl : lower = fun i => number (low i) := funext lower_eq
  obtain rfl : upper = fun i => number (high i) := funext upper_eq
  exact ⟨⟨low, high, less⟩, rfl⟩

variable {box : Box EReal n} {x d : Fin n → ℝ}

theorem contains_numbers (v : Vec EReal n) : box.numbers.Contains v.numbers ↔ box.Contains v := by
  simp [Contains, numbers]

theorem breakpoint?_numbers (i : Fin n) :
    box.numbers.breakpoint? (Vec.ofReal x).numbers (Vec.ofReal d).numbers i =
      (box.breakpoint? (Vec.ofReal x) (Vec.ofReal d) i).map number := by
  simp only [breakpoint?, numbers, Vec.get_numbers, Vec.get_ofReal, zero_eq, number_lt, sub_coe]
  by_cases up : (0 : EReal) < d i ∧ (x i : EReal) < box.upper i
  · rw [if_pos up, if_pos up, div_coe _ (EReal.coe_pos.1 up.1).ne']
    rfl
  · rw [if_neg up, if_neg up]
    by_cases down : (d i : EReal) < 0 ∧ box.lower i < x i
    · rw [if_pos down, if_pos down, div_coe _ (EReal.coe_neg'.1 down.1).ne]
      rfl
    · rw [if_neg down, if_neg down]
      rfl

/-- **Breakpoints are numbers.** -/
theorem breakpoints_numbers (box : Box EReal n) (x d : Fin n → ℝ) :
    box.numbers.breakpoints (Vec.ofReal x).numbers (Vec.ofReal d).numbers =
      { count := (box.breakpoints (Vec.ofReal x) (Vec.ofReal d)).count
        min := number (box.breakpoints (Vec.ofReal x) (Vec.ofReal d)).min
        max := number (box.breakpoints (Vec.ofReal x) (Vec.ofReal d)).max } := by
  have steps : (List.finRange n).filterMap
      (box.numbers.breakpoint? (Vec.ofReal x).numbers (Vec.ofReal d).numbers) =
        ((List.finRange n).filterMap (box.breakpoint? (Vec.ofReal x) (Vec.ofReal d))).map number := by
    rw [List.map_filterMap]
    exact congrArg (fun f => List.filterMap f _) (funext breakpoint?_numbers)
  unfold breakpoints
  rw [steps]
  cases (List.finRange n).filterMap (box.breakpoint? (Vec.ofReal x) (Vec.ofReal d)) with
  | nil => rfl
  | cons first rest =>
      have least : ((first :: rest).map number).foldl Scalar.smaller Scalar.infinity =
          number ((first :: rest).foldl Scalar.smaller Scalar.infinity) :=
        foldl_number (fun x y => by rw [smaller_number, Scalar.smaller_eq_min]) _ ⊤
      have greatest : ((first :: rest).map number).foldl Scalar.larger 0 =
          number ((first :: rest).foldl Scalar.larger 0) :=
        foldl_number (fun x y => by rw [larger_number, Scalar.larger_eq_max]) _ 0
      rw [List.map_cons] at least greatest ⊢
      simp only [least, greatest, List.length_cons, List.length_map]

/-- **Steps of real length** are those of the extended real line. -/
theorem projectedStep_numbers (box : Box EReal n) (x d : Fin n → ℝ) (t : ℝ) :
    box.numbers.projectedStep (Vec.ofReal x).numbers (Vec.ofReal d).numbers (number t) =
      (box.projectedStep (Vec.ofReal x) (Vec.ofReal d) t).numbers := by
  refine Vec.ext_get fun i => ?_
  simp [numbers, ← EReal.coe_mul]

/-- **The step of infinite length** has numbers for its entries. A variable that moves and has no bound
ahead of it moves infinitely far. -/
theorem exists_step_top (inside : box.Contains (Vec.ofReal x)) (d : Fin n → ℝ) :
    ∃ e : Vec EReal n, box.numbers.projectedStep (Vec.ofReal x).numbers (Vec.ofReal d).numbers
        (number ⊤) = e.numbers ∧
      ∀ i, box.breakpoint? (Vec.ofReal x) (Vec.ofReal d) i = some ⊤ → e.get i = ⊤ ∨ e.get i = ⊥ := by
  have entry : ∀ i, ∃ y : EReal,
      (box.numbers.projectedStep (Vec.ofReal x).numbers (Vec.ofReal d).numbers (number ⊤)).get i =
        number y ∧
      (box.breakpoint? (Vec.ofReal x) (Vec.ofReal d) i = some ⊤ → y = ⊤ ∨ y = ⊥) := by
    intro i
    have reaches : box.breakpoint? (Vec.ofReal x) (Vec.ofReal d) i = some ⊤ → box.reach x d i = ⊤ :=
      fun infinite => by rw [reach, infinite, Option.getD_some]
    simp only [get_projectedStep, Vec.get_numbers, Vec.get_ofReal, numbers]
    rcases lt_trichotomy (d i) 0 with down | still | up
    · refine ⟨box.lower i - x i, ?_, fun infinite => .inr ?_⟩
      · rw [top_mul_of_ne down.ne, EReal.top_mul_coe_of_neg down, coe_add, EReal.add_bot,
          larger_number, max_eq_right bot_le, smaller_number, min_eq_left (box.ordered i), sub_coe]
      · rcases reach_of_neg inside down with ⟨-, unbounded⟩ | ⟨b, near, -⟩
        · rw [unbounded, EReal.bot_sub]
        · exact absurd (near.symm.trans (reaches infinite)) (EReal.coe_ne_top b)
    · refine ⟨box.lower i - x i, ?_, fun infinite => ?_⟩
      · rw [still, EReal.coe_zero, top_mul_zero, add_invalid, larger_invalid, smaller_number,
          min_eq_left (box.ordered i), sub_coe]
      · rw [breakpoint?_eq_none.2 (.inl still)] at infinite
        cases infinite
    · refine ⟨box.upper i - x i, ?_, fun infinite => .inl ?_⟩
      · rw [top_mul_of_ne up.ne', EReal.top_mul_coe_of_pos up, coe_add, EReal.coe_add_top,
          larger_number, max_eq_left le_top, smaller_number, min_eq_right le_top, sub_coe]
      · rcases reach_of_pos inside up with ⟨-, unbounded⟩ | ⟨b, near, -⟩
        · rw [unbounded, EReal.top_sub_coe]
        · exact absurd (near.symm.trans (reaches infinite)) (EReal.coe_ne_top b)
  choose y same far using entry
  refine ⟨Vector.ofFn y, Vec.ext_get fun i => ?_, fun i infinite => ?_⟩
  · rw [same, Vec.get_numbers, Vec.get_ofFn]
  · rw [Vec.get_ofFn]
    exact far i infinite

end Box

end BoxNewton

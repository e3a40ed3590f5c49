import Mathlib
import BoxNewton.Proofs.Entry

/-!
# The order of scalars

What the minimizer does with special values rests on the two comparisons alone. A type of scalars has
a lawful order when its numbers, the scalars that compare with themselves, are totally ordered and
nothing else compares with anything (`LawfulOrder`). No law relates the order to the arithmetic, so
what follows from these laws holds under every rounding.

Both floating-point types have a lawful order. Their comparisons go by sign, exponent and mantissa in
turn, which is a lexicographic order on all that is not a NaN (`le_iff_place`).

The projection into a box needs no more than the order. It puts every entry that is a number between
its bounds (`holds_project`), and a point that is held in this sense it does not move
(`project_of_holds`).
-/

set_option autoImplicit false

namespace BoxNewton

namespace Scalar

/-- The numbers are totally ordered, and what is not a number compares with nothing. -/
class LawfulOrder (α : Type) [Scalar α] : Prop where
  number_left {x y : α} : x ≤ y → IsNumber x
  number_right {x y : α} : x ≤ y → IsNumber y
  le_trans {x y z : α} : x ≤ y → y ≤ z → x ≤ z
  le_total {x y : α} : IsNumber x → IsNumber y → x ≤ y ∨ y ≤ x
  lt_iff {x y : α} : x < y ↔ x ≤ y ∧ ¬ y ≤ x

variable {α : Type} [Scalar α] [LawfulOrder α] {x y : α}

theorem le_of_not_lt (hx : IsNumber x) (hy : IsNumber y) (h : ¬ y < x) : x ≤ y := by
  rcases LawfulOrder.le_total hx hy with le | ge
  · exact le
  · by_cases le : x ≤ y
    · exact le
    · exact absurd (LawfulOrder.lt_iff.2 ⟨ge, le⟩) h

theorem not_lt_of_le (h : x ≤ y) : ¬ y < x := fun lt => (LawfulOrder.lt_iff.1 lt).2 h

/-! ## Floating-point numbers -/

section FloatingPoint

open Float.Model

/-- The place of an unpacked number in the order: by its sign, its exponent and its mantissa. -/
def place : UnpackedFloat → Option (Int ×ₗ Int ×ₗ Int)
  | .notANumber => none
  | .infinity .positive => some (toLex (2, toLex (0, 0)))
  | .infinity .negative => some (toLex (-2, toLex (0, 0)))
  | .zero _ => some (toLex (0, toLex (0, 0)))
  | .finite .positive m e _ => some (toLex (1, toLex (e, m)))
  | .finite .negative m e _ => some (toLex (-1, toLex (-e, -m)))

theorem isLE_then_compare (e e' : Int) (m m' : Nat) :
    ((compare e e').then (compare m m')).isLE = true ↔ e < e' ∨ e = e' ∧ m ≤ m' := by
  rcases lt_trichotomy e e' with lt | same | gt
  · simp [compare_lt_iff_lt.2 lt, lt]
  · subst same
    simp [Nat.isLE_compare]
  · simp [compare_gt_iff_gt.2 gt, gt.not_gt, gt.ne']

theorem isGE_then_compare (e e' : Int) (m m' : Nat) :
    ((compare e e').then (compare m m')).isGE = true ↔ e' < e ∨ e = e' ∧ m' ≤ m := by
  rcases lt_trichotomy e e' with lt | same | gt
  · simp [compare_lt_iff_lt.2 lt, lt.not_gt, lt.ne]
  · subst same
    simp [Nat.isGE_compare]
  · simp [compare_gt_iff_gt.2 gt, gt]

theorem le_iff_place {a b : UnpackedFloat} :
    a.le b = true ↔ ∃ x ∈ place a, ∃ y ∈ place b, x ≤ y := by
  cases a with
  | notANumber => simp [UnpackedFloat.le, UnpackedFloat.compare, place]
  | infinity s =>
      cases s <;> cases b with
      | infinity t =>
          cases t <;> simp [UnpackedFloat.le, UnpackedFloat.compare, place, compare, Prod.Lex.le_iff]
      | finite t =>
          cases t <;> simp [UnpackedFloat.le, UnpackedFloat.compare, place, Prod.Lex.le_iff]
      | _ => simp [UnpackedFloat.le, UnpackedFloat.compare, place, Prod.Lex.le_iff]
  | zero s =>
      cases b with
      | infinity t =>
          cases t <;> simp [UnpackedFloat.le, UnpackedFloat.compare, place, Prod.Lex.le_iff]
      | finite t =>
          cases t <;> simp [UnpackedFloat.le, UnpackedFloat.compare, place, Prod.Lex.le_iff]
      | _ => simp [UnpackedFloat.le, UnpackedFloat.compare, place, Prod.Lex.le_iff]
  | finite s m e =>
      cases s <;> cases b with
      | infinity t =>
          cases t <;> simp [UnpackedFloat.le, UnpackedFloat.compare, place, Prod.Lex.le_iff]
      | finite t =>
          cases t <;> simp [UnpackedFloat.le, UnpackedFloat.compare, place, Prod.Lex.le_iff,
            isLE_then_compare, isGE_then_compare]
      | _ => simp [UnpackedFloat.le, UnpackedFloat.compare, place, Prod.Lex.le_iff]

theorem compare_swap (a b : UnpackedFloat) : b.compare a = (a.compare b).map Ordering.swap := by
  cases a with
  | notANumber => cases b <;> simp [UnpackedFloat.compare]
  | infinity s =>
      cases s <;> cases b with
      | infinity t => cases t <;> simp [UnpackedFloat.compare, compare]
      | finite t => cases t <;> simp [UnpackedFloat.compare]
      | _ => simp [UnpackedFloat.compare]
  | zero s =>
      cases b with
      | infinity t => cases t <;> simp [UnpackedFloat.compare]
      | finite t => cases t <;> simp [UnpackedFloat.compare]
      | _ => simp [UnpackedFloat.compare]
  | finite s m e =>
      cases s <;> cases b with
      | infinity t => cases t <;> simp [UnpackedFloat.compare]
      | finite t =>
          cases t <;> simp [UnpackedFloat.compare, Ordering.swap_then, Int.compare_swap,
            Nat.compare_swap]
      | _ => simp [UnpackedFloat.compare]

theorem lt_iff_le_not_le (a b : UnpackedFloat) :
    a.lt b = true ↔ a.le b = true ∧ ¬ b.le a = true := by
  rw [UnpackedFloat.lt, UnpackedFloat.le, UnpackedFloat.le, compare_swap a b]
  cases a.compare b with
  | none => simp
  | some o => cases o <;> simp

/-- A type whose comparisons are those of unpacked numbers has a lawful order. -/
theorem LawfulOrder.ofUnpacked {β : Type} [Scalar β] (unpack : β → UnpackedFloat)
    (le : ∀ x y : β, x ≤ y ↔ (unpack x).le (unpack y) = true)
    (lt : ∀ x y : β, x < y ↔ (unpack x).lt (unpack y) = true) : LawfulOrder β where
  number_left h := by
    rw [le, le_iff_place] at h
    obtain ⟨x, hx, _⟩ := h
    exact (le _ _).2 (le_iff_place.2 ⟨x, hx, x, hx, le_refl x⟩)
  number_right h := by
    rw [le, le_iff_place] at h
    obtain ⟨_, _, y, hy, _⟩ := h
    exact (le _ _).2 (le_iff_place.2 ⟨y, hy, y, hy, le_refl y⟩)
  le_trans h k := by
    rw [le, le_iff_place] at h k
    obtain ⟨x, hx, y, hy, first⟩ := h
    obtain ⟨y', hy', z, hz, second⟩ := k
    cases Option.mem_unique hy hy'
    exact (le _ _).2 (le_iff_place.2 ⟨x, hx, z, hz, first.trans second⟩)
  le_total h k := by
    rw [IsNumber, le, le_iff_place] at h k
    obtain ⟨x, hx, _⟩ := h
    obtain ⟨y, hy, _⟩ := k
    rcases LinearOrder.le_total x y with first | second
    · exact .inl ((le _ _).2 (le_iff_place.2 ⟨x, hx, y, hy, first⟩))
    · exact .inr ((le _ _).2 (le_iff_place.2 ⟨y, hy, x, hx, second⟩))
  lt_iff := by
    intro x y
    rw [lt, le, le]
    exact lt_iff_le_not_le _ _

instance : LawfulOrder Float :=
  .ofUnpacked (fun x => x.toModel.unpack)
    (fun _ _ => decide_eq_true_iff) (fun _ _ => decide_eq_true_iff)

instance : LawfulOrder Float32 :=
  .ofUnpacked (fun x => x.toModel.unpack)
    (fun _ _ => decide_eq_true_iff) (fun _ _ => decide_eq_true_iff)

end FloatingPoint

end Scalar

/-! ## Projections -/

namespace Box

variable {α : Type} [Scalar α] {n : Nat}

/-- Holds when every entry that is a number lies between its bounds. -/
def Holds (box : Box α n) (x : Vec α n) : Prop :=
  ∀ i : Fin n, Scalar.IsNumber (x.get i) → box.lower i ≤ x.get i ∧ x.get i ≤ box.upper i

/-- Writing a part that is held over a point that is held. -/
theorem Holds.scatter {box : Box α n} {free : IndexSet (Fin n)} {part : Vec α free.size}
    {full : Vec α n} (outside : box.Holds full) (inside : (box.restrict free).Holds part) :
    box.Holds (free.scatter part full) := by
  intro i number
  rcases free.get_scatter_cases part full i with old | ⟨k, here, new⟩
  · rw [old] at number ⊢
    exact outside i number
  · rw [new] at number ⊢
    subst here
    exact inside k number

variable [Scalar.LawfulOrder α]

theorem clamp_mem {lo hi : α} (ordered : lo ≤ hi) {x : α}
    (number : Scalar.IsNumber (clamp lo hi x)) :
    lo ≤ clamp lo hi x ∧ clamp lo hi x ≤ hi := by
  have numberLo := Scalar.LawfulOrder.number_left ordered
  have numberHi := Scalar.LawfulOrder.number_right ordered
  by_cases below : x < lo
  · simp only [clamp, if_pos below]
    exact ⟨numberLo, ordered⟩
  · by_cases above : hi < x
    · simp only [clamp, if_neg below, if_pos above]
      exact ⟨ordered, numberHi⟩
    · simp only [clamp, if_neg below, if_neg above] at number ⊢
      exact ⟨Scalar.le_of_not_lt numberLo number below, Scalar.le_of_not_lt number numberHi above⟩

/-- What is between the bounds stays, and so does what is not a number. -/
theorem clamp_of_held {lo hi x : α} (held : Scalar.IsNumber x → lo ≤ x ∧ x ≤ hi) :
    clamp lo hi x = x := by
  by_cases number : Scalar.IsNumber x
  · simp [clamp, Scalar.not_lt_of_le (held number).1, Scalar.not_lt_of_le (held number).2]
  · have below : ¬ x < lo := fun lt =>
      number (Scalar.LawfulOrder.number_left (Scalar.LawfulOrder.lt_iff.1 lt).1)
    have above : ¬ hi < x := fun lt =>
      number (Scalar.LawfulOrder.number_right (Scalar.LawfulOrder.lt_iff.1 lt).1)
    simp [clamp, below, above]

/-- **A projected point is held by the box.** -/
theorem holds_project (box : Box α n) (x : Vec α n) : box.Holds (box.project x) := by
  intro i number
  rw [get_project] at number ⊢
  exact clamp_mem (box.ordered i) number

theorem project_of_holds {box : Box α n} {x : Vec α n} (held : box.Holds x) :
    box.project x = x := by
  apply Vec.ext_get
  intro i
  rw [get_project, clamp_of_held (held i)]

theorem project_project (box : Box α n) (x : Vec α n) :
    box.project (box.project x) = box.project x :=
  project_of_holds (holds_project box x)

end Box

end BoxNewton

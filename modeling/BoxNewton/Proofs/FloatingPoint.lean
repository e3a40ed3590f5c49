import Mathlib
import BoxNewton.Proofs.Products
import BoxNewton.Proofs.Rounding

/-!
# Products of floating-point numbers

Both floating-point types are bit patterns of a format (`FloatingPoint`). The amount of a number that is
not negative is an extended real, and the comparison of such numbers is the one of their amounts
(`Proper.le_iff`). A product with a positive finite factor is the product of the amounts, rounded
(`mul_rounds`) and packed; packing turns what is too large into infinity and changes nothing else, so it
is monotone (`packed_mono`).

So products of numbers that are not negative are monotone, and a factor below one does not increase a
number: both types are types of scalars with lawful products (`FloatingPoint.lawfulProducts`).
-/

set_option autoImplicit false

namespace BoxNewton

namespace Rounding

open Float.Model Float.Model.UnpackedFloat

variable {spec : Format}

/-! ## Packing -/

@[simp] theorem unpackSign_packComponents {sign : Sign} {exponent : BitVec spec.exponentBits}
    {mantissa : BitVec spec.mantissaBitsWithoutImplicit} :
    unpackSign (packComponents spec sign exponent mantissa) = sign.toBitVec := by
  apply BitVec.eq_of_getLsbD_eq
  intro i single
  obtain rfl : i = 0 := by omega
  simp [unpackSign, packComponents, BitVec.getLsbD_append, BitVec.getElem_append]

@[simp] theorem ofBitVec_toBitVec (sign : Sign) : Sign.ofBitVec sign.toBitVec = sign := by
  cases sign <;> rfl

/-- What packing leaves of an unpacked number. -/
def packed (spec : Format) (u : UnpackedFloat) : UnpackedFloat :=
  UnpackedFloat.unpack spec (UnpackedFloat.pack spec u)

/-- Holds for the exponents that are too large for the format. -/
def Overflows (spec : Format) (e : ℤ) : Prop :=
  2 ^ spec.exponentBits ≤ (e + spec.exponentBias + spec.mantissaBitsWithoutImplicit).toNat + 1

theorem Overflows.mono {e e' : ℤ} (large : Overflows spec e) (less : e ≤ e') : Overflows spec e' := by
  unfold Overflows at large ⊢
  omega

/-- The number of the least exponent. -/
theorem minExponent_biased (spec : Format) :
    spec.minExponent + spec.exponentBias + spec.mantissaBitsWithoutImplicit = 1 := by
  have positive : 0 < 2 ^ (spec.exponentBits - 1) := by positivity
  simp only [Format.minExponent, Format.exponentBias, Format.mantissaBits]
  push_cast [Nat.cast_sub (Nat.one_le_of_lt positive)]
  ring

theorem zero_ne_allOnes {k : ℕ} (positive : 0 < k) : (0#k : BitVec k) ≠ -1#k := by
  rw [BitVec.neg_one_eq_allOnes, ne_eq, ← BitVec.toNat_inj, BitVec.toNat_allOnes]
  have bound := Nat.one_lt_two_pow positive.ne'
  simp only [BitVec.toNat_ofNat, Nat.zero_mod]
  omega

theorem packed_zero (spec : Format) (sign : Sign) : packed spec (.zero sign) = .zero sign := by
  have different := zero_ne_allOnes spec.he
  simp [packed, UnpackedFloat.pack, packedZero, UnpackedFloat.unpack, different]

theorem packed_infinity (spec : Format) (sign : Sign) :
    packed spec (.infinity sign) = .infinity sign := by
  simp [packed, UnpackedFloat.pack, packedInfinity, UnpackedFloat.unpack]

theorem packed_of_overflows {m : ℕ} {e : ℤ} (positive : 0 < m) (sign : Sign)
    (large : Overflows spec e) : packed spec (.finite sign m e positive) = .infinity sign := by
  have large' : 2 ^ spec.exponentBits ≤
      (e + spec.exponentBias + spec.mantissaBitsWithoutImplicit).toNat + 1 := large
  simp [packed, UnpackedFloat.pack, packedInfinity, UnpackedFloat.unpack, large']

theorem toNat_append_one (k m : ℕ) (low : 2 ^ k ≤ m) (high : m < 2 ^ (k + 1)) :
    (1#1 ++ BitVec.ofNat k m).toNat = m := by
  have rest : m % 2 ^ k = m - 2 ^ k := by
    rw [Nat.mod_eq_sub_mod low, Nat.mod_eq_of_lt]
    rw [pow_succ] at high
    omega
  simp only [BitVec.toNat_append, BitVec.toNat_ofNat, rest]
  rw [← Nat.shiftLeft_add_eq_or_of_lt (by rw [pow_succ] at high; omega), Nat.shiftLeft_eq]
  omega

theorem packed_of_not_overflows {m : ℕ} {e : ℤ} (positive : 0 < m) (sign : Sign)
    (canonical : Canonical spec m e) (small : ¬ Overflows spec e) :
    packed spec (.finite sign m e positive) = .finite sign m e positive := by
  have fits := canonical.fits
  have low := canonical.least
  have least := minExponent_biased spec
  have bits := mantissaBits_eq spec
  obtain ⟨biased, exponent⟩ := Int.eq_ofNat_of_zero_le
    (show 0 ≤ e + spec.exponentBias + spec.mantissaBitsWithoutImplicit by omega)
  have small' : ¬ 2 ^ spec.exponentBits ≤ biased + 1 := by
    unfold Overflows at small
    rwa [exponent] at small
  have notSpecial : BitVec.ofNat spec.exponentBits biased ≠ -1#_ := by
    rw [BitVec.neg_one_eq_allOnes, ne_eq, ← BitVec.toNat_inj, BitVec.toNat_allOnes,
      BitVec.toNat_ofNat, Nat.mod_eq_of_lt (by omega)]
    omega
  by_cases normal : m.log2 + 1 = spec.mantissaBits
  · have leading : 2 ^ spec.mantissaBitsWithoutImplicit ≤ m := by
      have short : m.log2 = spec.mantissaBitsWithoutImplicit := by omega
      exact short ▸ Nat.log2_self_le positive.ne'
    have notSubnormal : BitVec.ofNat spec.exponentBits biased ≠ 0#_ := by
      rw [ne_eq, ← BitVec.toNat_inj, BitVec.toNat_ofNat, Nat.mod_eq_of_lt (by omega)]
      simp only [BitVec.toNat_ofNat, Nat.zero_mod]
      omega
    have mantissa := toNat_append_one _ m leading (mantissaBits_eq spec ▸ fits)
    simp only [packed, UnpackedFloat.pack, exponent, Int.toNat_natCast,
      if_neg small', if_pos normal, UnpackedFloat.unpack, unpackExponent_packComponents,
      unpackMantissa_packComponents, unpackSign_packComponents, if_neg notSpecial,
      if_neg notSubnormal, ofBitVec_toBitVec, mantissa]
    congr 1
    rw [BitVec.toNat_ofNat, Nat.mod_eq_of_lt (by omega)]
    omega
  · have short : m < 2 ^ spec.mantissaBitsWithoutImplicit := by
      have bound := (Nat.log2_lt positive.ne').2 fits
      rw [← Nat.log2_lt positive.ne']
      omega
    have atLeast := canonical.normal.resolve_right (by omega)
    have mantissa : (BitVec.ofNat spec.mantissaBitsWithoutImplicit m).toNat = m := by
      rw [BitVec.toNat_ofNat, Nat.mod_eq_of_lt short]
    have nonzero : BitVec.ofNat spec.mantissaBitsWithoutImplicit m ≠ 0#_ := by
      intro zero
      rw [zero] at mantissa
      simp only [BitVec.toNat_ofNat, Nat.zero_mod] at mantissa
      omega
    simp only [packed, UnpackedFloat.pack, exponent, Int.toNat_natCast, if_neg small',
      if_neg normal, UnpackedFloat.unpack, unpackExponent_packComponents,
      unpackMantissa_packComponents, unpackSign_packComponents,
      if_neg (zero_ne_allOnes spec.he), if_pos, dif_neg nonzero, ofBitVec_toBitVec, mantissa]
    congr 1
    simp only [BitVec.toNat_ofNat, Nat.zero_mod]
    omega

/-- What is unpacked is a number of the format. With a single bit for the exponent there would be no
finite numbers. -/
theorem canonical_of_unpack (wide : 1 < spec.exponentBits) {b : BitVec spec.numBits} {sign : Sign}
    {m : ℕ} {e : ℤ}
    {positive : 0 < m} (here : UnpackedFloat.unpack spec b = .finite sign m e positive) :
    Canonical spec m e ∧ ¬ Overflows spec e := by
  have least := minExponent_biased spec
  have bits := mantissaBits_eq spec
  have mantissa := (unpackMantissa b).isLt
  have exponent := (unpackExponent b).isLt
  have power : 2 ^ spec.mantissaBits = 2 ^ spec.mantissaBitsWithoutImplicit * 2 := by
    rw [bits, pow_succ]
  have large : 2 ^ 2 ≤ 2 ^ spec.exponentBits := Nat.pow_le_pow_right two_pos wide
  simp only [UnpackedFloat.unpack] at here
  by_cases special : unpackExponent b = -1#_
  · rw [if_pos special] at here
    split at here <;> cases here
  · rw [if_neg special] at here
    have notSpecial : (unpackExponent b).toNat ≠ 2 ^ spec.exponentBits - 1 := by
      rwa [BitVec.neg_one_eq_allOnes, ← BitVec.toNat_inj, BitVec.toNat_allOnes] at special
    by_cases subnormal : unpackExponent b = 0#_
    · rw [if_pos subnormal] at here
      split at here
      · cases here
      · cases here
        have zero : (unpackExponent b).toNat = 0 := by
          rw [subnormal, BitVec.toNat_ofNat, Nat.zero_mod]
        refine ⟨⟨?_, ?_, .inl ?_⟩, ?_⟩
        · omega
        · omega
        · omega
        · unfold Overflows
          omega
    · rw [if_neg subnormal] at here
      cases here
      have notZero : (unpackExponent b).toNat ≠ 0 := by
        intro zero
        exact subnormal (BitVec.eq_of_toNat_eq (by rw [zero, BitVec.toNat_ofNat, Nat.zero_mod]))
      have leading : (1#1 ++ unpackMantissa b).toNat =
          2 ^ spec.mantissaBitsWithoutImplicit + (unpackMantissa b).toNat := by
        rw [BitVec.toNat_append, ← Nat.shiftLeft_add_eq_or_of_lt mantissa, Nat.shiftLeft_eq]
        simp
      refine ⟨⟨by omega, by omega, .inr (by omega)⟩, ?_⟩
      unfold Overflows
      omega

/-! ## Amounts -/

/-- The radix of all formats. -/
def radix : ℕ := 2

/-- The amount of an unpacked number that is not negative. -/
noncomputable def amount : UnpackedFloat → EReal
  | .infinity _ => ⊤
  | .finite _ m e _ => ((m * (radix : ℝ) ^ e : ℝ) : EReal)
  | _ => 0

theorem amount_finite (sign : Sign) {m : ℕ} (positive : 0 < m) (e : ℤ) :
    amount (.finite sign m e positive) = ((m * 2 ^ e : ℝ) : EReal) := by
  simp [amount, radix]

/-- The unpacked numbers of the format that are not negative. -/
inductive Proper (spec : Format) : UnpackedFloat → Prop where
  | zero (sign : Sign) : Proper spec (.zero sign)
  | infinity : Proper spec (.infinity .positive)
  | finite (m : ℕ) (e : ℤ) (positive : 0 < m) (canonical : Canonical spec m e) :
      Proper spec (.finite .positive m e positive)

theorem amount_finite_pos {m : ℕ} (positive : 0 < m) (e : ℤ) :
    0 < amount (.finite .positive m e positive) := by
  have factor : (0 : ℝ) < m := by exact_mod_cast positive
  rw [amount_finite, EReal.coe_pos]
  exact mul_pos factor (zpow_pos_two e)

theorem Proper.amount_nonneg {u : UnpackedFloat} (proper : Proper spec u) : 0 ≤ amount u := by
  cases proper with
  | zero sign => exact le_rfl
  | infinity => exact le_top
  | finite m e positive canonical => exact (amount_finite_pos positive e).le

/-- The comparison of numbers is the one of amounts. -/
theorem Proper.le_iff {u u' : UnpackedFloat} (proper : Proper spec u) (proper' : Proper spec u') :
    u.le u' = true ↔ amount u ≤ amount u' := by
  rw [Scalar.le_iff_place]
  cases proper with
  | zero sign =>
      refine iff_of_true ?_ proper'.amount_nonneg
      cases proper' with
      | zero sign' => simp [Scalar.place]
      | infinity => simp [Scalar.place, Prod.Lex.le_iff]
      | finite m e positive canonical => simp [Scalar.place, Prod.Lex.le_iff]
  | infinity =>
      cases proper' with
      | zero sign' => simp [Scalar.place, amount, Prod.Lex.le_iff]
      | infinity => simp [Scalar.place]
      | finite m e positive canonical =>
          refine iff_of_false (by simp [Scalar.place, Prod.Lex.le_iff]) ?_
          exact not_le.2 (EReal.coe_lt_top _)
  | finite m e positive canonical =>
      cases proper' with
      | zero sign' =>
          refine iff_of_false (by simp [Scalar.place, Prod.Lex.le_iff]) ?_
          exact not_le.2 (amount_finite_pos positive e)
      | infinity => simp [Scalar.place, amount, Prod.Lex.le_iff]
      | finite m' e' positive' canonical' =>
          simp only [amount_finite, EReal.coe_le_coe_iff, canonical.le_iff canonical']
          simp [Scalar.place, Prod.Lex.le_iff]

/-- What is unpacked and not negative is a number of the format, and packing it changes nothing. -/
theorem proper_of_unpack (wide : 1 < spec.exponentBits) {b : BitVec spec.numBits}
    (nonneg : (UnpackedFloat.zero .positive).le (UnpackedFloat.unpack spec b) = true) :
    Proper spec (UnpackedFloat.unpack spec b) ∧
      packed spec (UnpackedFloat.unpack spec b) = UnpackedFloat.unpack spec b := by
  cases here : UnpackedFloat.unpack spec b with
  | notANumber =>
      rw [here] at nonneg
      cases nonneg
  | zero sign => exact ⟨.zero sign, packed_zero spec sign⟩
  | infinity sign =>
      cases sign with
      | negative =>
          rw [here] at nonneg
          cases nonneg
      | positive => exact ⟨.infinity, packed_infinity spec .positive⟩
  | finite sign m e positive =>
      obtain ⟨canonical, small⟩ := canonical_of_unpack wide here
      cases sign with
      | negative =>
          rw [here] at nonneg
          cases nonneg
      | positive =>
          exact ⟨.finite m e positive canonical,
            packed_of_not_overflows positive .positive canonical small⟩

theorem proper_packed {u : UnpackedFloat} (proper : Proper spec u) : Proper spec (packed spec u) := by
  cases proper with
  | zero sign =>
      rw [packed_zero]
      exact .zero sign
  | infinity =>
      rw [packed_infinity]
      exact .infinity
  | finite m e positive canonical =>
      by_cases large : Overflows spec e
      · rw [packed_of_overflows positive .positive large]
        exact .infinity
      · rw [packed_of_not_overflows positive .positive canonical large]
        exact .finite m e positive canonical

/-- **Packing is monotone.** -/
theorem packed_mono {u u' : UnpackedFloat} (proper : Proper spec u) (proper' : Proper spec u')
    (less : amount u ≤ amount u') :
    amount (packed spec u) ≤ amount (packed spec u') := by
  cases proper with
  | zero sign =>
      rw [packed_zero]
      exact (proper_packed proper').amount_nonneg
  | infinity =>
      cases proper' with
      | zero sign' => exact absurd less (not_le.2 EReal.zero_lt_top)
      | infinity => exact le_rfl
      | finite m e positive canonical => exact absurd less (not_le.2 (EReal.coe_lt_top _))
  | finite m e positive canonical =>
      cases proper' with
      | zero sign' => exact absurd less (not_le.2 (amount_finite_pos positive e))
      | infinity =>
          rw [packed_infinity]
          exact le_top
      | finite m' e' positive' canonical' =>
          have order := (canonical.le_iff canonical').1 (EReal.coe_le_coe_iff.1 less)
          by_cases large : Overflows spec e'
          · rw [packed_of_overflows positive' .positive large]
            exact le_top
          · have small : ¬ Overflows spec e := fun large' => large (large'.mono (by omega))
            rw [packed_of_not_overflows positive .positive canonical small,
              packed_of_not_overflows positive' .positive canonical' large]
            exact less

/-! ## Products -/

/-- Holds when the second amount is the first one rounded. -/
inductive Rounds (spec : Format) : EReal → EReal → Prop where
  | zero : Rounds spec 0 0
  | infinite : Rounds spec ⊤ ⊤
  | positive {v : ℝ} {t : ℤ} {r : ℕ} (amount : 0 < v) (rounds : RoundsAt spec v t r) :
      Rounds spec (v : EReal) ((r * 2 ^ t : ℝ) : EReal)

theorem Rounds.nonneg {x y : EReal} (rounds : Rounds spec x y) : 0 ≤ y := by
  cases rounds with
  | zero => exact le_rfl
  | infinite => exact le_top
  | positive amount rounds => exact EReal.coe_nonneg.2 (by positivity)

theorem Rounds.mono {x y x' y' : EReal} (rounds : Rounds spec x y) (rounds' : Rounds spec x' y')
    (less : x ≤ x') : y ≤ y' := by
  cases rounds with
  | zero => exact rounds'.nonneg
  | infinite =>
      cases rounds' with
      | zero => exact absurd less (not_le.2 EReal.zero_lt_top)
      | infinite => exact le_rfl
      | positive amount' rounds' => exact absurd less (not_le.2 (EReal.coe_lt_top _))
  | positive amount rounds =>
      cases rounds' with
      | zero => exact absurd less (not_le.2 (EReal.coe_pos.2 amount))
      | infinite => exact le_top
      | positive amount' rounds' =>
          exact EReal.coe_le_coe_iff.2 (rounds.mono rounds' (EReal.coe_le_coe_iff.1 less))

/-- The numbers of the format are rounded to themselves. -/
theorem Proper.rounds {u : UnpackedFloat} (proper : Proper spec u) :
    Rounds spec (amount u) (amount u) := by
  cases proper with
  | zero sign => exact .zero
  | infinity => exact .infinite
  | finite m e positive canonical =>
      exact .positive (EReal.coe_pos.1 (amount_finite_pos positive e)) canonical.roundsAt

/-- A product of mantissas has bits to drop, or is below the least exponent. -/
theorem product_fits {m m' : ℕ} {e e' : ℤ} (positive : 0 < m) (positive' : 0 < m')
    (canonical : Canonical spec m e) (canonical' : Canonical spec m' e') :
    e + e' ≤ spec.targetExponent (totalExponent (m * m') (e + e')) := by
  have bits := mantissaBits_eq spec
  have digits := spec.hm
  have target : spec.targetExponent (totalExponent (m * m') (e + e')) =
      max ((m * m').log2 + 1 + (e + e') - spec.mantissaBits) spec.minExponent := rfl
  have product : 0 < m * m' := Nat.mul_pos positive positive'
  have long : 2 ^ spec.mantissaBitsWithoutImplicit ≤ m * m' →
      spec.mantissaBitsWithoutImplicit ≤ (m * m').log2 := (Nat.le_log2 product.ne').2
  rcases canonical.normal with least | normal
  · rcases canonical'.normal with least' | normal'
    · have negative : spec.minExponent ≤ 0 := by
        have power : (0 : ℤ) < 2 ^ (spec.exponentBits - 1) := by positivity
        simp only [Format.minExponent]
        omega
      omega
    · have bits' := long (normal'.trans (Nat.le_mul_of_pos_left m' positive))
      omega
  · have bits' := long (normal.trans (Nat.le_mul_of_pos_right m positive'))
    omega

/-- **Products are rounded.** A product with a positive finite factor is the rounded product of the
amounts. -/
theorem mul_rounds {m : ℕ} {e : ℤ} (positive : 0 < m) (canonical : Canonical spec m e)
    {u : UnpackedFloat} (proper : Proper spec u) :
    Proper spec (mul spec (.finite .positive m e positive) u) ∧
      Rounds spec (amount (.finite .positive m e positive) * amount u)
        (amount (mul spec (.finite .positive m e positive) u)) := by
  have factor := amount_finite_pos positive e
  cases proper with
  | zero sign =>
      refine ⟨.zero _, ?_⟩
      change Rounds spec (_ * 0) 0
      rw [mul_zero]
      exact .zero
  | infinity =>
      refine ⟨.infinity, ?_⟩
      change Rounds spec (_ * ⊤) ⊤
      rw [EReal.mul_top_of_pos factor]
      exact .infinite
  | finite m' e' positive' canonical' =>
      have product : mul spec (.finite .positive m e positive) (.finite .positive m' e' positive') =
        roundWithAccuracy spec .positive (m * m') (e + e') .exact := rfl
      have amounts : amount (.finite .positive m e positive) *
          amount (.finite .positive m' e' positive') = ((m * m' : ℕ) * 2 ^ (e + e') : ℝ) := by
        simp only [amount_finite, ← EReal.coe_mul]
        congr 1
        push_cast
        rw [zpow_add₀ two_ne_zero]
        ring
      have many : 0 < m * m' := Nat.mul_pos positive positive'
      have real : (0 : ℝ) < (m * m' : ℕ) * 2 ^ (e + e') :=
        mul_pos (by exact_mod_cast many) (zpow_pos_two _)
      rw [product, amounts]
      obtain ⟨t, r, rounds, ⟨zero, same⟩ | ⟨n, k, nonzero, fits, value, same⟩⟩ :=
        round_exact .positive many (product_fits positive positive' canonical canonical')
      · rw [same]
        refine ⟨.zero _, ?_⟩
        have vanishes := Rounds.positive real rounds
        rwa [zero, Nat.cast_zero, zero_mul] at vanishes
      · rw [same]
        refine ⟨.finite n k nonzero fits, ?_⟩
        change Rounds spec _ ((n * 2 ^ k : ℝ) : EReal)
        rw [value]
        exact .positive real rounds

/-! ## The two floating-point types -/

/-- A type of scalars that are bit patterns of a format, with its comparison and its rounded product. -/
structure FloatingPoint (β : Type) [Scalar β] (spec : Format) (bits : β → BitVec spec.numBits) :
    Prop where
  wide : 1 < spec.exponentBits
  le {x y : β} : x ≤ y ↔
    (UnpackedFloat.unpack spec (bits x)).le (UnpackedFloat.unpack spec (bits y)) = true
  mul {x y : β} : UnpackedFloat.unpack spec (bits (x * y)) = packed spec
    (UnpackedFloat.mul spec (UnpackedFloat.unpack spec (bits x)) (UnpackedFloat.unpack spec (bits y)))
  zero : UnpackedFloat.unpack spec (bits 0) = .zero .positive
  one : amount (UnpackedFloat.unpack spec (bits 1)) = 1
  zero_lt_one : (0 : β) < 1
  zero_lt_hundred : (0 : β) < 100.0

namespace FloatingPoint

variable {β : Type} [Scalar β] {bits : β → BitVec spec.numBits} (floats : FloatingPoint β spec bits)

include floats

theorem proper {x : β} (nonneg : 0 ≤ x) : Proper spec (UnpackedFloat.unpack spec (bits x)) ∧
    packed spec (UnpackedFloat.unpack spec (bits x)) = UnpackedFloat.unpack spec (bits x) := by
  rw [floats.le, floats.zero] at nonneg
  exact proper_of_unpack floats.wide nonneg

theorem le_iff_amount {x y : β} (hx : 0 ≤ x) (hy : 0 ≤ y) : x ≤ y ↔
    amount (UnpackedFloat.unpack spec (bits x)) ≤ amount (UnpackedFloat.unpack spec (bits y)) :=
  floats.le.trans ((floats.proper hx).1.le_iff (floats.proper hy).1)

variable [Scalar.LawfulOrder β]

theorem amount_le_one {a : β} (factor : 0 < a) (below : a < 1) :
    amount (UnpackedFloat.unpack spec (bits a)) ≤ 1 := by
  have unit := Scalar.le_of_lt floats.zero_lt_one
  rw [← floats.one]
  exact (floats.le_iff_amount (Scalar.le_of_lt factor) unit).1 (Scalar.le_of_lt below)

/-- A factor between zero and one is a positive finite number. -/
theorem exists_factor {a : β} (factor : 0 < a) (below : a < 1) :
    ∃ (m : ℕ) (e : ℤ) (positive : 0 < m), Canonical spec m e ∧
      UnpackedFloat.unpack spec (bits a) = .finite .positive m e positive := by
  have proper := (floats.proper (Scalar.le_of_lt factor)).1
  have bounded := floats.amount_le_one factor below
  have origin : (0 : β) ≤ 0 :=
    Scalar.LawfulOrder.number_left (Scalar.le_of_lt floats.zero_lt_one)
  have above := mt (floats.le_iff_amount (Scalar.le_of_lt factor) origin).2
    (Scalar.LawfulOrder.lt_iff.1 factor).2
  rw [floats.zero] at above
  cases here : UnpackedFloat.unpack spec (bits a) with
  | zero sign =>
      rw [here] at above
      exact absurd le_rfl above
  | infinity sign =>
      rw [here] at bounded
      exact absurd bounded (not_le.2 (EReal.coe_lt_top 1))
  | notANumber =>
      rw [here] at proper
      cases proper
  | finite sign m e positive =>
      rw [here] at proper
      cases proper with
      | finite _ _ _ canonical => exact ⟨m, e, positive, canonical, rfl⟩

/-- A product with a factor between zero and one is the packed rounded product of the amounts. -/
theorem product {a x : β} (factor : 0 < a) (below : a < 1) (nonneg : 0 ≤ x) :
    ∃ u : UnpackedFloat, Proper spec u ∧ UnpackedFloat.unpack spec (bits (a * x)) = packed spec u ∧
      Rounds spec (amount (UnpackedFloat.unpack spec (bits a)) *
        amount (UnpackedFloat.unpack spec (bits x))) (amount u) := by
  obtain ⟨m, e, positive, canonical, here⟩ := floats.exists_factor factor below
  have rounds := mul_rounds positive canonical (floats.proper nonneg).1
  refine ⟨_, rounds.1, ?_, ?_⟩
  · rw [floats.mul, here]
  · rw [here]
    exact rounds.2

theorem mul_nonneg {a x : β} (factor : 0 < a) (below : a < 1) (nonneg : 0 ≤ x) : 0 ≤ a * x := by
  obtain ⟨u, proper, same, -⟩ := floats.product factor below nonneg
  have kept := proper_packed proper
  rw [floats.le, floats.zero, same, (Proper.zero .positive).le_iff kept]
  exact kept.amount_nonneg

/-- Both floating-point types have lawful products. -/
theorem lawfulProducts : Scalar.LawfulProducts β where
  zero_lt_one := floats.zero_lt_one
  zero_lt_hundred := floats.zero_lt_hundred
  mul_nonneg := floats.mul_nonneg
  mul_le_self := by
    intro a x factor below nonneg
    obtain ⟨u, proper, same, rounds⟩ := floats.product factor below nonneg
    obtain ⟨properX, unmoved⟩ := floats.proper nonneg
    rw [floats.le_iff_amount (floats.mul_nonneg factor below nonneg) nonneg, same, ← unmoved]
    refine packed_mono proper properX (rounds.mono properX.rounds ?_)
    calc amount (UnpackedFloat.unpack spec (bits a)) * amount (UnpackedFloat.unpack spec (bits x))
        ≤ 1 * amount (UnpackedFloat.unpack spec (bits x)) :=
          mul_le_mul_of_nonneg_right (floats.amount_le_one factor below) properX.amount_nonneg
      _ = amount (UnpackedFloat.unpack spec (bits x)) := one_mul _
  mul_le_mul := by
    intro a b x y factor less below nonneg order
    have factor' := Scalar.lt_of_lt_of_le factor less
    have below' : a < 1 := Scalar.lt_of_le_of_lt less below
    have nonneg' := Scalar.LawfulOrder.le_trans nonneg order
    obtain ⟨u, proper, same, rounds⟩ := floats.product factor below' nonneg
    obtain ⟨v, proper', same', rounds'⟩ := floats.product factor' below nonneg'
    rw [floats.le_iff_amount (floats.mul_nonneg factor below' nonneg)
      (floats.mul_nonneg factor' below nonneg'), same, same']
    refine packed_mono proper proper' (rounds.mono rounds' ?_)
    have properA := (floats.proper (Scalar.le_of_lt factor)).1
    have factors := (floats.le_iff_amount (Scalar.le_of_lt factor) (Scalar.le_of_lt factor')).1 less
    have amounts := (floats.le_iff_amount nonneg nonneg').1 order
    exact mul_le_mul factors amounts (floats.proper nonneg).1.amount_nonneg
      (properA.amount_nonneg.trans factors)

end FloatingPoint

theorem binary64_floats :
    FloatingPoint Float Format.binary64 fun x => x.toModel.toBits.toBitVec where
  wide := by decide
  le := decide_eq_true_iff
  mul := rfl
  zero := rfl
  one := by
    have unit : UnpackedFloat.unpack Format.binary64 (1 : Float).toModel.toBits.toBitVec =
      .finite .positive (2 ^ 52) (-52) (by decide) := rfl
    rw [unit, amount_finite, ← EReal.coe_one]
    norm_num
  zero_lt_one := by decide +kernel
  zero_lt_hundred := by decide +kernel

theorem binary32_floats :
    FloatingPoint Float32 Format.binary32 fun x => x.toModel.toBits.toBitVec where
  wide := by decide
  le := decide_eq_true_iff
  mul := rfl
  zero := rfl
  one := by
    have unit : UnpackedFloat.unpack Format.binary32 (1 : Float32).toModel.toBits.toBitVec =
      .finite .positive (2 ^ 23) (-23) (by decide) := rfl
    rw [unit, amount_finite, ← EReal.coe_one]
    norm_num
  zero_lt_one := by decide +kernel
  zero_lt_hundred := by decide +kernel

end Rounding

instance : Scalar.LawfulProducts Float := Rounding.binary64_floats.lawfulProducts

instance : Scalar.LawfulProducts Float32 := Rounding.binary32_floats.lawfulProducts

end BoxNewton

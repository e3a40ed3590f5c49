import Mathlib

/-!
# Rounding

A positive real number is rounded to a nearest number of a floating-point format, and to the even one of
two. The exponent `t` of the result depends on the size of the number, and the result is a multiple of
`2 ^ t` with a nearest factor (`RoundsAt`). This is monotone (`RoundsAt.mono`), and the numbers of the
format are rounded to themselves (`Canonical.roundsAt`).

The arithmetic of mantissas does just this (`round_exact`). A shifted mantissa with its two residual bits
stands for a real number (`Represents`), and the rounded mantissa is a nearest integer to it; the second
shift only takes back a carry.
-/

set_option autoImplicit false

namespace BoxNewton

namespace Rounding

open Float.Model Float.Model.UnpackedFloat

/-! ## Nearest integers -/

/-- Holds when no integer is nearer to `v` than `r`, which is even if another one is as near. -/
structure IsNearest (v : ℝ) (r : ℕ) : Prop where
  above : 2 * v ≤ 2 * r + 1
  below : 2 * r ≤ 2 * v + 1
  even : 2 * v = 2 * r + 1 ∨ 2 * r = 2 * v + 1 → Even r

theorem IsNearest.self (r : ℕ) : IsNearest r r where
  above := by linarith
  below := by linarith
  even tie := by
    rcases tie with tie | tie <;> linarith

/-- A larger number has no smaller nearest integer. Between two neighbours there is only the tie, and they are
not both even. -/
theorem IsNearest.mono {v w : ℝ} {r q : ℕ} (near : IsNearest v r) (near' : IsNearest w q)
    (less : v ≤ w) : r ≤ q := by
  by_contra larger
  rw [not_le] at larger
  have next : (q : ℝ) + 1 ≤ r := by exact_mod_cast larger
  have above := near'.above
  have below := near.below
  have same : (r : ℝ) = q + 1 := by linarith
  have evenLeft := near.even (.inr (by linarith))
  have evenRight := near'.even (.inl (by linarith))
  have neighbours : r = q + 1 := by exact_mod_cast same
  rw [neighbours, Nat.even_add_one] at evenLeft
  exact evenLeft evenRight

/-! ## Extended mantissas -/

/-- Holds when a mantissa with its two residual bits stands for `v`: the mantissa is what is left when
`v` is cut, the round bit says that a half or more was cut off, and the sticky bit that it was neither
nothing nor a half. -/
structure Represents (em : ExtendedMantissa) (v : ℝ) : Prop where
  low : em.mantissa ≤ v
  high : v < em.mantissa + 1
  roundBit : em.roundBit = true ↔ 2 * (em.mantissa : ℝ) + 1 ≤ 2 * v
  stickyBit : em.stickyBit = false ↔ v = em.mantissa ∨ 2 * v = 2 * em.mantissa + 1

theorem represents_exact (m : ℕ) : Represents ⟨m, false, false⟩ m where
  low := le_refl _
  high := by linarith
  roundBit := iff_of_false Bool.false_ne_true (by linarith)
  stickyBit := iff_of_true rfl (.inl rfl)

/-- No residual bit is set when nothing was cut off. -/
theorem Represents.bits_eq_false {em : ExtendedMantissa} {v : ℝ} (stands : Represents em v) :
    (em.roundBit || em.stickyBit) = false ↔ v = em.mantissa := by
  rw [Bool.or_eq_false_iff, stands.stickyBit, ← Bool.not_eq_true, stands.roundBit, not_le]
  constructor
  · rintro ⟨less, exact | half⟩
    · exact exact
    · linarith
  · intro exact
    exact ⟨by linarith, .inl exact⟩

/-- Shifting by one place halves what is stood for. -/
theorem Represents.shiftRightOne {em : ExtendedMantissa} {v : ℝ} (stands : Represents em v) :
    Represents em.shiftRightOne (v / 2) := by
  have low := stands.low
  have high := stands.high
  have parts : ((em.mantissa % 2 : ℕ) : ℝ) + 2 * ((em.mantissa / 2 : ℕ) : ℝ) = em.mantissa := by
    exact_mod_cast Nat.mod_add_div em.mantissa 2
  have cut : em.shiftRightOne.mantissa = em.mantissa / 2 := rfl
  have sticky : em.shiftRightOne.stickyBit = (em.roundBit || em.stickyBit) := rfl
  have round : em.shiftRightOne.roundBit = (em.mantissa % 2 != 0) := rfl
  rcases Nat.mod_two_eq_zero_or_one em.mantissa with parity | parity
  · rw [parity] at parts round
    push_cast at parts
    refine ⟨?_, ?_, ?_, ?_⟩
    · rw [cut]
      linarith
    · rw [cut]
      linarith
    · rw [cut, round]
      exact iff_of_false Bool.false_ne_true (by linarith)
    · rw [cut, sticky, stands.bits_eq_false]
      constructor
      · exact fun exact => .inl (by linarith)
      · rintro (exact | half) <;> linarith
  · rw [parity] at parts round
    push_cast at parts
    refine ⟨?_, ?_, ?_, ?_⟩
    · rw [cut]
      linarith
    · rw [cut]
      linarith
    · rw [cut, round]
      exact iff_of_true rfl (by linarith)
    · rw [cut, sticky, stands.bits_eq_false]
      constructor
      · exact fun exact => .inr (by linarith)
      · rintro (exact | half) <;> linarith

theorem Represents.shiftRight {em : ExtendedMantissa} {v : ℝ} (stands : Represents em v) (k : ℕ) :
    Represents (em >>> k) (v / 2 ^ k) := by
  induction k with
  | zero => simpa [HShiftRight.hShiftRight, Nat.repeat] using stands
  | succ k ih =>
      have step := ih.shiftRightOne
      rwa [div_div, ← pow_succ] at step

theorem Represents.roundedMantissa {em : ExtendedMantissa} {v : ℝ} (stands : Represents em v) :
    IsNearest v em.roundedMantissa := by
  obtain ⟨low, high, roundBit, stickyBit⟩ := stands
  obtain ⟨m, round, sticky⟩ := em
  dsimp only at low high roundBit stickyBit
  cases round <;> cases sticky
  · have below := mt roundBit.2 Bool.false_ne_true
    change IsNearest v m
    rcases stickyBit.1 rfl with exact | half
    · exact exact ▸ IsNearest.self m
    · linarith
  · have below := mt roundBit.2 Bool.false_ne_true
    change IsNearest v m
    refine ⟨by linarith, by linarith, ?_⟩
    rintro (tie | tie) <;> linarith
  · have half : 2 * v = 2 * m + 1 := by
      rcases stickyBit.1 rfl with exact | half
      · linarith [roundBit.1 rfl]
      · exact half
    change IsNearest v (m + m % 2)
    rcases Nat.even_or_odd m with even | odd
    · rw [Nat.even_iff.1 even, add_zero]
      exact ⟨by linarith, by linarith, fun _ => even⟩
    · rw [Nat.odd_iff.1 odd]
      refine ⟨?_, ?_, fun _ => odd.add_one⟩ <;> push_cast <;> linarith
  · have least := roundBit.1 rfl
    obtain ⟨-, notHalf⟩ := not_or.1 (mt stickyBit.2 (by decide))
    have more : 2 * (m : ℝ) + 1 < 2 * v := lt_of_le_of_ne least (Ne.symm notHalf)
    change IsNearest v (m + 1)
    refine ⟨?_, ?_, ?_⟩ <;> push_cast
    · linarith
    · linarith
    · rintro (tie | tie) <;> linarith

/-! ## Rounded numbers -/

variable {spec : Format}

theorem zpow_pos_two (t : ℤ) : (0 : ℝ) < 2 ^ t := zpow_pos two_pos t

/-- Holds when a positive number is rounded at the exponent `t` to `r * 2 ^ t`. -/
structure RoundsAt (spec : Format) (v : ℝ) (t : ℤ) (r : ℕ) : Prop where
  least : spec.minExponent ≤ t
  fits : v < 2 ^ spec.mantissaBits * 2 ^ t
  normal : t = spec.minExponent ∨ 2 ^ spec.mantissaBitsWithoutImplicit * 2 ^ t ≤ v
  nearest : IsNearest (v / 2 ^ t) r

theorem mantissaBits_eq (spec : Format) :
    spec.mantissaBits = spec.mantissaBitsWithoutImplicit + 1 := Nat.add_comm _ _

/-- What fits at an exponent does not reach a mantissa at the next one. -/
theorem fits_succ {t t' : ℤ} (less : t < t') :
    (2 : ℝ) ^ spec.mantissaBits * 2 ^ t ≤ 2 ^ spec.mantissaBitsWithoutImplicit * 2 ^ t' := by
  rw [mantissaBits_eq, pow_succ, mul_assoc, ← zpow_one_add₀ two_ne_zero]
  refine mul_le_mul_of_nonneg_left ?_ (by positivity)
  exact zpow_le_zpow_right₀ one_le_two (by omega)

/-- **Rounding is monotone.** Of two numbers with different exponents, the smaller rounds to at most the bound
between the exponents and the larger to no less. -/
theorem RoundsAt.mono {v w : ℝ} {t t' : ℤ} {r r' : ℕ} (rounds : RoundsAt spec v t r)
    (rounds' : RoundsAt spec w t' r') (less : v ≤ w) : (r : ℝ) * 2 ^ t ≤ r' * 2 ^ t' := by
  rcases lt_trichotomy t t' with before | same | after
  · have low : r ≤ 2 ^ spec.mantissaBits := by
      refine rounds.nearest.mono (IsNearest.self _) ?_
      rw [div_le_iff₀ (zpow_pos_two t)]
      exact_mod_cast rounds.fits.le
    have high : 2 ^ spec.mantissaBitsWithoutImplicit ≤ r' := by
      refine (IsNearest.self _).mono rounds'.nearest ?_
      rw [le_div_iff₀ (zpow_pos_two t')]
      have least := rounds.least
      exact_mod_cast rounds'.normal.resolve_left (by omega)
    calc (r : ℝ) * 2 ^ t ≤ 2 ^ spec.mantissaBits * 2 ^ t :=
          mul_le_mul_of_nonneg_right (by exact_mod_cast low) (zpow_pos_two t).le
      _ ≤ 2 ^ spec.mantissaBitsWithoutImplicit * 2 ^ t' := fits_succ before
      _ ≤ r' * 2 ^ t' := mul_le_mul_of_nonneg_right (by exact_mod_cast high) (zpow_pos_two t').le
  · subst same
    have factors := rounds.nearest.mono rounds'.nearest
      (div_le_div_of_nonneg_right less (zpow_pos_two t).le)
    exact mul_le_mul_of_nonneg_right (by exact_mod_cast factors) (zpow_pos_two t).le
  · have least := rounds'.least
    have normal := rounds.normal.resolve_left (by omega)
    have crossed := (fits_succ after).trans (normal.trans less)
    exact absurd rounds'.fits (not_lt.2 crossed)

/-- Holds for the mantissa and the exponent of a number of the format. -/
structure Canonical (spec : Format) (m : ℕ) (e : ℤ) : Prop where
  least : spec.minExponent ≤ e
  fits : m < 2 ^ spec.mantissaBits
  normal : e = spec.minExponent ∨ 2 ^ spec.mantissaBitsWithoutImplicit ≤ m

/-- The numbers of the format are rounded to themselves. -/
theorem Canonical.roundsAt {m : ℕ} {e : ℤ} (canonical : Canonical spec m e) :
    RoundsAt spec (m * 2 ^ e) e m where
  least := canonical.least
  fits := mul_lt_mul_of_pos_right (by exact_mod_cast canonical.fits) (zpow_pos_two e)
  normal := canonical.normal.imp_right fun normal =>
    mul_le_mul_of_nonneg_right (by exact_mod_cast normal) (zpow_pos_two e).le
  nearest := by
    rw [mul_div_cancel_right₀ _ (zpow_pos_two e).ne']
    exact IsNearest.self m

/-- The numbers of the format are in the order of their exponents and mantissas. -/
theorem Canonical.le_iff {m m' : ℕ} {e e' : ℤ} (canonical : Canonical spec m e)
    (canonical' : Canonical spec m' e') :
    (m : ℝ) * 2 ^ e ≤ m' * 2 ^ e' ↔ e < e' ∨ e = e' ∧ m ≤ m' := by
  have later : ∀ {m m' : ℕ} {e e' : ℤ}, Canonical spec m e → Canonical spec m' e' → e < e' →
      (m : ℝ) * 2 ^ e < m' * 2 ^ e' := by
    intro m m' e e' canonical canonical' before
    have least := canonical.least
    have normal := canonical'.roundsAt.normal.resolve_left (by omega)
    exact canonical.roundsAt.fits.trans_le ((fits_succ before).trans normal)
  constructor
  · intro less
    rcases lt_trichotomy e e' with before | same | after
    · exact .inl before
    · subst same
      exact .inr ⟨rfl, by exact_mod_cast le_of_mul_le_mul_right less (zpow_pos_two e)⟩
    · exact absurd (later canonical' canonical after) (not_lt.2 less)
  · rintro (before | ⟨rfl, less⟩)
    · exact (later canonical canonical' before).le
    · exact mul_le_mul_of_nonneg_right (by exact_mod_cast less) (zpow_pos_two e).le

/-! ## Rounding mantissas -/

theorem shiftToTargetExponent_exact (m : ℕ) (e : ℤ) :
    shiftToTargetExponent spec m e .exact =
      ((⟨m, false, false⟩ : ExtendedMantissa) >>>
          (spec.targetExponent (totalExponent m e) - e).toNat,
        e + (spec.targetExponent (totalExponent m e) - e).toNat) := rfl

theorem mantissa_shiftRight (em : ExtendedMantissa) (k : ℕ) :
    (em >>> k).mantissa = em.mantissa / 2 ^ k := by
  induction k with
  | zero => simp [HShiftRight.hShiftRight, Nat.repeat]
  | succ k ih =>
      have step : (em >>> (k + 1)).mantissa = (em >>> k).mantissa / 2 := rfl
      rw [step, ih, Nat.div_div_eq_div_mul, pow_succ]

variable (spec) in
/-- The exponent at which a positive number is rounded belongs to its size. -/
theorem targetExponent_fits {m : ℕ} (positive : 0 < m) (e : ℤ) :
    (m : ℝ) * 2 ^ e < 2 ^ spec.mantissaBits * 2 ^ spec.targetExponent (totalExponent m e) ∧
      (spec.targetExponent (totalExponent m e) = spec.minExponent ∨
        (2 : ℝ) ^ spec.mantissaBitsWithoutImplicit * 2 ^ spec.targetExponent (totalExponent m e) ≤
          m * 2 ^ e) := by
  have bits := mantissaBits_eq spec
  have below : (m : ℝ) < 2 ^ ((m.log2 + 1 : ℕ) : ℤ) := by
    exact_mod_cast Nat.lt_log2_self (n := m)
  have above : (2 : ℝ) ^ (m.log2 : ℤ) ≤ m := by exact_mod_cast Nat.log2_self_le positive.ne'
  have target : spec.targetExponent (totalExponent m e) =
      max (m.log2 + 1 + e - spec.mantissaBits) spec.minExponent := rfl
  constructor
  · calc (m : ℝ) * 2 ^ e < 2 ^ ((m.log2 + 1 : ℕ) : ℤ) * 2 ^ e :=
          mul_lt_mul_of_pos_right below (zpow_pos_two e)
      _ ≤ 2 ^ spec.mantissaBits * 2 ^ spec.targetExponent (totalExponent m e) := by
          rw [← zpow_natCast (2 : ℝ) spec.mantissaBits, ← zpow_add₀ two_ne_zero,
            ← zpow_add₀ two_ne_zero]
          exact zpow_le_zpow_right₀ one_le_two (by omega)
  · by_cases least : spec.targetExponent (totalExponent m e) = spec.minExponent
    · exact .inl least
    · refine .inr (le_trans ?_ (mul_le_mul_of_nonneg_right above (zpow_pos_two e).le))
      rw [← zpow_natCast (2 : ℝ) spec.mantissaBitsWithoutImplicit, ← zpow_add₀ two_ne_zero,
        ← zpow_add₀ two_ne_zero]
      exact zpow_le_zpow_right₀ one_le_two (by omega)

/-- The first of the two shifts of a rounding rounds. -/
theorem roundsAt_shift {m : ℕ} (positive : 0 < m) {e : ℤ}
    (fits : e ≤ spec.targetExponent (totalExponent m e)) :
    RoundsAt spec (m * 2 ^ e) (spec.targetExponent (totalExponent m e))
      (shiftToTargetExponent spec m e .exact).1.roundedMantissa := by
  obtain ⟨k, shift⟩ := Int.eq_ofNat_of_zero_le (sub_nonneg.2 fits)
  have places : (spec.targetExponent (totalExponent m e) - e).toNat = k := by omega
  have ends : spec.targetExponent (totalExponent m e) = e + k := by omega
  have scaled : (m : ℝ) * 2 ^ e / 2 ^ spec.targetExponent (totalExponent m e) = m / 2 ^ k := by
    rw [ends, zpow_add₀ two_ne_zero, zpow_natCast, mul_comm (m : ℝ),
      mul_div_mul_left _ _ (zpow_pos_two e).ne']
  have bounds := targetExponent_fits spec positive e
  refine ⟨le_max_right _ _, bounds.1, bounds.2, ?_⟩
  rw [scaled, shiftToTargetExponent_exact, places]
  exact ((represents_exact m).shiftRight k).roundedMantissa

/-- A mantissa that fits is not shifted. -/
theorem shiftToTargetExponent_of_fits {r : ℕ} {t : ℤ} (least : spec.minExponent ≤ t)
    (fits : r < 2 ^ spec.mantissaBits) :
    shiftToTargetExponent spec r t .exact = (⟨r, false, false⟩, t) := by
  have bits := mantissaBits_eq spec
  have short : r.log2 < spec.mantissaBits := by
    rcases Nat.eq_zero_or_pos r with zero | positive
    · rw [zero, Nat.log2_zero]
      omega
    · exact (Nat.log2_lt positive.ne').2 fits
  have target : spec.targetExponent (totalExponent r t) =
      max (r.log2 + 1 + t - spec.mantissaBits) spec.minExponent := rfl
  have places : (spec.targetExponent (totalExponent r t) - t).toNat = 0 := by omega
  rw [shiftToTargetExponent_exact, places]
  simp [HShiftRight.hShiftRight, Nat.repeat]

variable (spec) in
/-- A mantissa that rounding has carried over is shifted by one place. -/
theorem shiftToTargetExponent_carry {t : ℤ} (least : spec.minExponent ≤ t) :
    (shiftToTargetExponent spec (2 ^ spec.mantissaBits) t .exact).1.mantissa =
        2 ^ spec.mantissaBitsWithoutImplicit ∧
      (shiftToTargetExponent spec (2 ^ spec.mantissaBits) t .exact).2 = t + 1 := by
  have target : spec.targetExponent (totalExponent (2 ^ spec.mantissaBits) t) =
      max ((2 ^ spec.mantissaBits).log2 + 1 + t - spec.mantissaBits) spec.minExponent := rfl
  rw [Nat.log2_two_pow] at target
  have places : (spec.targetExponent (totalExponent (2 ^ spec.mantissaBits) t) - t).toNat = 1 := by
    omega
  rw [shiftToTargetExponent_exact, places, mantissa_shiftRight]
  refine ⟨?_, rfl⟩
  change 2 ^ spec.mantissaBits / 2 ^ 1 = _
  rw [mantissaBits_eq, pow_succ, pow_one, Nat.mul_div_cancel _ two_pos]

/-- **Rounding a mantissa.** The result is zero or a number of the format, and it is what the number is
rounded to. -/
theorem round_exact (sign : Sign) {m : ℕ} (positive : 0 < m) {e : ℤ}
    (fits : e ≤ spec.targetExponent (totalExponent m e)) :
    ∃ (t : ℤ) (r : ℕ), RoundsAt spec (m * 2 ^ e) t r ∧
      (r = 0 ∧ roundWithAccuracy spec sign m e .exact = .zero sign ∨
        ∃ (m' : ℕ) (e' : ℤ) (h : 0 < m'), Canonical spec m' e' ∧
          (m' : ℝ) * 2 ^ e' = r * 2 ^ t ∧
          roundWithAccuracy spec sign m e .exact = .finite sign m' e' h) := by
  have rounds := roundsAt_shift positive fits
  have ends : (shiftToTargetExponent spec m e .exact).2 =
      spec.targetExponent (totalExponent m e) := by
    rw [shiftToTargetExponent_exact]
    dsimp only
    omega
  refine ⟨_, _, rounds, ?_⟩
  unfold roundWithAccuracy
  generalize shiftToTargetExponent spec m e .exact = first at rounds ends ⊢
  obtain ⟨em, e₁⟩ := first
  dsimp only at rounds ends ⊢
  rw [← ends] at rounds ⊢
  have carried : em.roundedMantissa ≤ 2 ^ spec.mantissaBits := by
    refine rounds.nearest.mono (IsNearest.self _) ?_
    rw [div_le_iff₀ (zpow_pos_two _)]
    exact_mod_cast rounds.fits.le
  have bits : 2 ^ spec.mantissaBits = 2 ^ spec.mantissaBitsWithoutImplicit * 2 := by
    rw [mantissaBits_eq, pow_succ]
  rcases carried.lt_or_eq with short | full
  · rw [shiftToTargetExponent_of_fits rounds.least short]
    by_cases zero : em.roundedMantissa = 0
    · exact .inl ⟨zero, dif_pos zero⟩
    · refine .inr ⟨_, _, Nat.pos_of_ne_zero zero, ⟨rounds.least, short, ?_⟩, rfl, dif_neg zero⟩
      refine rounds.normal.imp_right fun normal => ?_
      refine (IsNearest.self _).mono rounds.nearest ?_
      rw [le_div_iff₀ (zpow_pos_two _)]
      exact_mod_cast normal
  · obtain ⟨mantissa, exponent⟩ := shiftToTargetExponent_carry spec rounds.least
    have least := rounds.least
    have positive : 0 < 2 ^ spec.mantissaBitsWithoutImplicit := by positivity
    rw [full]
    refine .inr ⟨_, e₁ + 1, positive, ⟨?_, ?_, .inr le_rfl⟩, ?_, ?_⟩
    · omega
    · omega
    · rw [bits, zpow_add_one₀ two_ne_zero]
      push_cast
      ring
    · simp only [mantissa, exponent, positive.ne', dif_neg, not_false_iff]

end Rounding

end BoxNewton

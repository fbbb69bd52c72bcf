import Mathlib

/-!
# Rounding

What the model of double arithmetic does with the bits that it drops, as a fact about rational numbers: a product or
quotient is rounded to the nearest point of the grid of doubles around it, ties to the even mantissa
(`roundWithAccuracy_nearest`).
-/
namespace Scriptorium.Decimal

open Float.Model Float.Model.UnpackedFloat

/-- A mantissa, an exponent and what is known of the bits left out approximate a number. -/
def Approximates (m : Nat) (e : Int) (r : ℚ) : Accuracy → Prop
  | .exact => r = m * 2 ^ e
  | .inexact .lt => m * 2 ^ e < r ∧ r < (m + 1 / 2) * 2 ^ e
  | .inexact .eq => r = (m + 1 / 2) * 2 ^ e
  | .inexact .gt => (m + 1 / 2) * 2 ^ e < r ∧ r < (m + 1) * 2 ^ e

/-- The multiple of `2 ^ t` nearest to a number, of two the even one. -/
def Nearest (M : Nat) (t : Int) (r : ℚ) : Prop :=
  (M - 1 / 2) * 2 ^ t ≤ r ∧ r ≤ (M + 1 / 2) * 2 ^ t ∧
    (M % 2 = 1 → (M - 1 / 2) * 2 ^ t < r ∧ r < (M + 1 / 2) * 2 ^ t)

/-- Around a number, doubles are the multiples of `2 ^ t`. -/
def Grid (t : Int) (r : ℚ) : Prop :=
  -1074 ≤ t ∧ r < 2 ^ (t + 53) ∧ (t = -1074 ∨ 2 ^ (t + 52) ≤ r)

section
variable {m : Nat} {e : Int} {r : ℚ}

theorem two_zpow_pos (e : Int) : (0 : ℚ) < 2 ^ e := by positivity

theorem two_zpow_succ (e : Int) : (2 : ℚ) ^ (e + 1) = 2 * 2 ^ e := by
  rw [zpow_add_one₀ (by norm_num)]
  ring

theorem Approximates.le {acc : Accuracy} (near : Approximates m e r acc) : m * 2 ^ e ≤ r ∧ r < (m + 1) * 2 ^ e := by
  have unit := two_zpow_pos e
  unfold Approximates at near
  split at near
  · exact ⟨near.ge, by rw [near]; linarith⟩
  · exact ⟨near.1.le, by linarith⟩
  · exact ⟨by rw [near]; linarith, by rw [near]; linarith⟩
  · exact ⟨by linarith, near.2⟩

private theorem shiftRightOne_approximates {em : ExtendedMantissa} (near : Approximates em.mantissa e r em.accuracy) :
    Approximates em.shiftRightOne.mantissa (e + 1) r em.shiftRightOne.accuracy := by
  obtain ⟨m, round, sticky⟩ := em
  have unit := two_zpow_pos e
  rcases Nat.even_or_odd' m with ⟨k, rfl | rfl⟩
  · have half : 2 * k / 2 = k := by omega
    have bit : (2 * k % 2 != 0) = false := by simp
    cases round <;> cases sticky <;>
      simp only [ExtendedMantissa.shiftRightOne, ExtendedMantissa.accuracy, Approximates, half, bit, Bool.or_false,
        Bool.or_true, two_zpow_succ] at near ⊢ <;> push_cast at near
    · rw [near]
      ring
    · constructor <;> nlinarith
    · rw [near]
      constructor <;> nlinarith
    · constructor <;> nlinarith
  · have half : (2 * k + 1) / 2 = k := by omega
    have bit : ((2 * k + 1) % 2 != 0) = true := by simp
    cases round <;> cases sticky <;>
      simp only [ExtendedMantissa.shiftRightOne, ExtendedMantissa.accuracy, Approximates, half, bit, Bool.or_false,
        Bool.or_true, two_zpow_succ] at near ⊢ <;> push_cast at near
    · rw [near]
      ring
    · constructor <;> nlinarith
    · rw [near]
      constructor <;> nlinarith
    · constructor <;> nlinarith

private theorem shiftRight_approximates {em : ExtendedMantissa} (near : Approximates em.mantissa e r em.accuracy) (n : Nat) :
    Approximates (em >>> n).mantissa (e + n) r (em >>> n).accuracy := by
  induction n with
  | zero =>
    show Approximates em.mantissa (e + (0 : Nat)) r em.accuracy
    simpa using near
  | succ n ih =>
    rw [Nat.cast_succ, ← add_assoc]
    exact shiftRightOne_approximates ih

private theorem ofMantissaAndAccuracy_approximates {acc : Accuracy} (near : Approximates m e r acc) :
    Approximates (ExtendedMantissa.ofMantissaAndAccuracy m acc).mantissa e r
      (ExtendedMantissa.ofMantissaAndAccuracy m acc).accuracy := by
  rcases acc with _ | _ | _ | _ <;> exact near

/-- Rounding takes the nearest multiple. -/
theorem roundToNearestEven_nearest {acc : Accuracy} (near : Approximates m e r acc) :
    Nearest (acc.roundToNearestEven m) e r := by
  have unit := two_zpow_pos e
  rcases acc with _ | _ | _ | _ <;>
    simp only [Approximates, Accuracy.roundToNearestEven, Nearest] at near ⊢
  · rw [near]
    exact ⟨by nlinarith, by nlinarith, fun _ => ⟨by nlinarith, by nlinarith⟩⟩
  · exact ⟨by nlinarith, by nlinarith, fun _ => ⟨by nlinarith, by nlinarith⟩⟩
  · rw [near]
    rcases Nat.even_or_odd' m with ⟨k, rfl | rfl⟩
    · have even : 2 * k + 2 * k % 2 = 2 * k := by omega
      rw [even]
      exact ⟨by nlinarith, le_refl _, fun odd => by omega⟩
    · have even : 2 * k + 1 + (2 * k + 1) % 2 = 2 * k + 2 := by omega
      rw [even]
      push_cast
      exact ⟨by nlinarith, by nlinarith, fun odd => by omega⟩
  · push_cast
    exact ⟨by nlinarith, by nlinarith, fun _ => ⟨by nlinarith, by nlinarith⟩⟩

private theorem targetExponent_eq (total : Int) : Format.binary64.targetExponent total = max (total - 53) (-1074) := rfl

private theorem grid_of_approximates {acc : Accuracy} (positive : 0 < m) (near : Approximates m e r acc) :
    Grid (Format.binary64.targetExponent (totalExponent m e)) r := by
  obtain ⟨lower, upper⟩ := near.le
  have unit := two_zpow_pos e
  have least : (2 : ℚ) ^ ((m.log2 : Int) + e) ≤ r := by
    rw [zpow_add₀ (by norm_num), zpow_natCast]
    refine le_trans (mul_le_mul_of_nonneg_right ?_ unit.le) lower
    exact_mod_cast Nat.log2_self_le positive.ne'
  have most : r < (2 : ℚ) ^ ((m.log2 : Int) + 1 + e) := by
    rw [zpow_add₀ (by norm_num)]
    refine lt_of_lt_of_le upper (mul_le_mul_of_nonneg_right ?_ unit.le)
    have above : m + 1 ≤ 2 ^ (m.log2 + 1) := Nat.lt_log2_self
    exact_mod_cast above
  rw [targetExponent_eq, totalExponent]
  refine ⟨by omega, lt_of_lt_of_le most (zpow_le_zpow_right₀ (by norm_num) (by omega)), ?_⟩
  by_cases floor : (m.log2 : Int) + 1 + e - 53 ≤ -1074
  · exact .inl (by omega)
  · refine .inr (le_trans (zpow_le_zpow_right₀ (by norm_num) ?_) least)
    omega

theorem Grid.nearest_le {M : Nat} {t : Int} (grid : Grid t r) (near : Nearest M t r) : M ≤ 2 ^ 53 := by
  have unit := two_zpow_pos t
  have upper := grid.2.1
  rw [add_comm, zpow_add₀ (by norm_num)] at upper
  have lower := lt_of_le_of_lt near.1 upper
  have mantissa : (M : ℚ) - 1 / 2 < 2 ^ (53 : Nat) := lt_of_mul_lt_mul_right lower unit.le
  by_contra other
  have great : ((2 ^ 53 + 1 : Nat) : ℚ) ≤ M := by exact_mod_cast not_le.mp other
  push_cast at great
  linarith

/-- A multiple of `2 ^ t` with at most 53 bits, as a double: the carry into a bit more leaves a power of two. -/
def carried (s : UnpackedFloat.Sign) (M : Nat) (t : Int) : UnpackedFloat :=
  if h : M = 0 then .zero s
  else if M < 2 ^ 53 then .finite s M t (Nat.pos_of_ne_zero h)
  else .finite s (2 ^ 52) (t + 1) (by decide)

private theorem log2_lt_of_lt {M : Nat} (small : M < 2 ^ 53) : M.log2 ≤ 52 := by
  by_cases zero : M = 0
  · simp [zero]
  · have := (Nat.log2_lt zero).mpr small
    omega

private theorem shiftToTargetExponent_small {M : Nat} {t : Int} (small : M < 2 ^ 53) (least : -1074 ≤ t) :
    shiftToTargetExponent Format.binary64 M t .exact = (⟨M, false, false⟩, t) := by
  have bits := log2_lt_of_lt small
  have target : (Format.binary64.targetExponent (totalExponent M t) - t).toNat = 0 := by
    rw [targetExponent_eq, totalExponent]
    omega
  rw [shiftToTargetExponent, shiftToExponent, target]
  exact Prod.ext rfl (by simp)

private theorem shiftToTargetExponent_carry {t : Int} (least : -1074 ≤ t) :
    shiftToTargetExponent Format.binary64 (2 ^ 53) t .exact = (⟨2 ^ 52, false, false⟩, t + 1) := by
  have target : (Format.binary64.targetExponent (totalExponent (2 ^ 53) t) - t).toNat = 1 := by
    rw [targetExponent_eq, totalExponent, Nat.log2_two_pow]
    omega
  rw [shiftToTargetExponent, shiftToExponent, target]
  rfl

private theorem carried_eq (s : UnpackedFloat.Sign) {M : Nat} {t : Int} (most : M ≤ 2 ^ 53) (least : -1074 ≤ t) :
    (if h : (shiftToTargetExponent Format.binary64 M t .exact).1.mantissa = 0 then UnpackedFloat.zero s
      else .finite s (shiftToTargetExponent Format.binary64 M t .exact).1.mantissa
        (shiftToTargetExponent Format.binary64 M t .exact).2 (Nat.pos_of_ne_zero h)) = carried s M t := by
  by_cases small : M < 2 ^ 53
  · simp only [shiftToTargetExponent_small small least, carried, if_pos small]
  · have full : M = 2 ^ 53 := by omega
    subst full
    simp only [shiftToTargetExponent_carry least]
    rfl

/-- What an approximation of a number is rounded to. -/
theorem roundWithAccuracy_nearest (s : UnpackedFloat.Sign) {acc : Accuracy} (positive : 0 < m)
    (placed : e ≤ Format.binary64.targetExponent (totalExponent m e)) (near : Approximates m e r acc) :
    ∃ M t, Grid t r ∧ Nearest M t r ∧ roundWithAccuracy Format.binary64 s m e acc = carried s M t := by
  have grid := grid_of_approximates positive near
  have shifted := shiftRight_approximates (ofMantissaAndAccuracy_approximates near)
    (Format.binary64.targetExponent (totalExponent m e) - e).toNat
  have there : e + ((Format.binary64.targetExponent (totalExponent m e) - e).toNat : Int) =
      Format.binary64.targetExponent (totalExponent m e) := by omega
  rw [there] at shifted
  have nearest := roundToNearestEven_nearest shifted
  refine ⟨_, _, grid, nearest, ?_⟩
  have most := grid.nearest_le nearest
  have least := grid.1
  have first : shiftToTargetExponent Format.binary64 m e acc =
      (ExtendedMantissa.ofMantissaAndAccuracy m acc >>> (Format.binary64.targetExponent (totalExponent m e) - e).toNat,
        Format.binary64.targetExponent (totalExponent m e)) := by
    rw [shiftToTargetExponent, shiftToExponent, there]
  rw [roundWithAccuracy, first]
  exact carried_eq s most least

private theorem target_of_log2 {m : Nat} {e : Int} (placed : 52 ≤ m.log2 ∨ e ≤ -1074) :
    e ≤ Format.binary64.targetExponent (totalExponent m e) := by
  rw [targetExponent_eq, totalExponent]
  omega

theorem mul_nearest (s₁ s₂ : UnpackedFloat.Sign) {m₁ m₂ : Nat} {e₁ e₂ : Int} (h₁ : 0 < m₁) (h₂ : 0 < m₂)
    (placed : 52 ≤ (m₁ * m₂).log2 ∨ e₁ + e₂ ≤ -1074) :
    ∃ M t, Grid t (m₁ * 2 ^ e₁ * (m₂ * 2 ^ e₂)) ∧ Nearest M t (m₁ * 2 ^ e₁ * (m₂ * 2 ^ e₂)) ∧
      UnpackedFloat.mul Format.binary64 (.finite s₁ m₁ e₁ h₁) (.finite s₂ m₂ e₂ h₂) = carried (s₁ * s₂) M t := by
  refine roundWithAccuracy_nearest (s₁ * s₂) (Nat.mul_pos h₁ h₂) (target_of_log2 placed) ?_
  show (m₁ * 2 ^ e₁ * (m₂ * 2 ^ e₂) : ℚ) = (m₁ * m₂ : Nat) * 2 ^ (e₁ + e₂)
  rw [zpow_add₀ (by norm_num)]
  push_cast
  ring

private theorem log2_shiftLeft {m : Nat} (positive : 0 < m) (k : Nat) : (m <<< k).log2 = m.log2 + k := by
  have lower := Nat.log2_self_le positive.ne'
  have upper : m < 2 ^ (m.log2 + 1) := Nat.lt_log2_self
  rw [Nat.shiftLeft_eq, Nat.log2_eq_iff (by positivity)]
  constructor
  · rw [Nat.pow_add]
    exact Nat.mul_le_mul_right _ lower
  · rw [Nat.add_right_comm, Nat.pow_add]
    exact Nat.mul_lt_mul_of_pos_right upper (Nat.two_pow_pos k)

theorem round_nearest (s : UnpackedFloat.Sign) {m : Nat} (e : Int) (positive : 0 < m) :
    ∃ M t, Grid t (m * 2 ^ e) ∧ Nearest M t (m * 2 ^ e) ∧ UnpackedFloat.round Format.binary64 s m e = carried s M t := by
  rw [UnpackedFloat.round]
  simp only [decreaseExponent]
  have shifted : (m <<< (e - Format.binary64.targetExponent (totalExponent m e)).toNat).log2 =
      m.log2 + (e - Format.binary64.targetExponent (totalExponent m e)).toNat := by
    rw [log2_shiftLeft positive]
  refine roundWithAccuracy_nearest s (by rw [Nat.shiftLeft_eq]; positivity) ?_ ?_
  · simp only [targetExponent_eq, totalExponent] at shifted ⊢
    rw [shifted]
    omega
  · show (m * 2 ^ e : ℚ) = _
    rw [Nat.shiftLeft_eq]
    push_cast
    rw [zpow_sub₀ (by norm_num), zpow_natCast]
    field_simp

/-- The bits that a division leaves out. -/
theorem accuracyOfFraction_approximates {q n d : Nat} {e : Int} (below : n < d) :
    Approximates q e ((q + n / d) * 2 ^ e) (accuracyOfFraction n d) := by
  have positive : (0 : ℚ) < d := by exact_mod_cast Nat.zero_lt_of_lt below
  have unit := two_zpow_pos e
  unfold accuracyOfFraction
  split
  · rename_i zero
    show (_ : ℚ) = _
    rw [zero]
    simp
  · rename_i some
    have above : (0 : ℚ) < n / d := div_pos (by exact_mod_cast Nat.pos_of_ne_zero some) positive
    have less : (n / d : ℚ) < 1 := by
      rw [div_lt_one positive]
      exact_mod_cast below
    have half : ∀ z : ℚ, (n / d : ℚ) - 1 / 2 = (2 * n - d) / (2 * d) := by
      intro z
      field_simp
    rcases order : compare (2 * n) d with _ | _ | _
    · have short : (2 * n : ℚ) < d := by exact_mod_cast Nat.compare_eq_lt.mp order
      have small : (n / d : ℚ) < 1 / 2 := by
        rw [div_lt_iff₀ positive]
        linarith
      exact ⟨mul_lt_mul_of_pos_right (by linarith) unit, mul_lt_mul_of_pos_right (by linarith) unit⟩
    · have even : (2 * n : ℚ) = d := by exact_mod_cast Nat.compare_eq_eq.mp order
      have same : (n / d : ℚ) = 1 / 2 := by
        rw [div_eq_iff positive.ne']
        linarith
      show (_ : ℚ) = _
      rw [same]
    · have long : (d : ℚ) < 2 * n := by exact_mod_cast Nat.compare_eq_gt.mp order
      have great : (1 / 2 : ℚ) < n / d := by
        rw [lt_div_iff₀ positive]
        linarith
      exact ⟨mul_lt_mul_of_pos_right (by linarith) unit, mul_lt_mul_of_pos_right (by linarith) unit⟩

theorem div_nearest (s₁ s₂ : UnpackedFloat.Sign) {m₁ m₂ : Nat} {e₁ e₂ : Int} (h₁ : 0 < m₁) (h₂ : 0 < m₂)
    (normal : -1074 ≤ totalExponent m₁ e₁ - totalExponent m₂ e₂ - 53) :
    ∃ M t, Grid t (m₁ * 2 ^ e₁ / (m₂ * 2 ^ e₂)) ∧ Nearest M t (m₁ * 2 ^ e₁ / (m₂ * 2 ^ e₂)) ∧
      UnpackedFloat.div Format.binary64 (.finite s₁ m₁ e₁ h₁) (.finite s₂ m₂ e₂ h₂) = carried (s₁ / s₂) M t := by
  rw [UnpackedFloat.div]
  simp only [divCore]
  have target : Format.binary64.targetExponent (totalExponent m₁ e₁ - totalExponent m₂ e₂) =
      totalExponent m₁ e₁ - totalExponent m₂ e₂ - 53 := by
    rw [targetExponent_eq]
    omega
  rw [target]
  simp only [totalExponent] at normal ⊢
  generalize exponent : min (e₁ - e₂) ((m₁.log2 : Int) + 1 + e₁ - (m₂.log2 + 1 + e₂) - 53) = te
  -- the dividend is shifted so far that the quotient has 53 bits
  have wide : 2 ^ 52 ≤ m₁ <<< (e₁ - e₂ - te).toNat / m₂ := by
    have far : m₂.log2 + 53 ≤ m₁.log2 + (e₁ - e₂ - te).toNat := by omega
    rw [Nat.le_div_iff_mul_le h₂, Nat.shiftLeft_eq]
    have divisor : m₂ ≤ 2 ^ (m₂.log2 + 1) := Nat.lt_log2_self.le
    have dividend : 2 ^ m₁.log2 ≤ m₁ := Nat.log2_self_le h₁.ne'
    calc 2 ^ 52 * m₂ ≤ 2 ^ 52 * 2 ^ (m₂.log2 + 1) := Nat.mul_le_mul_left _ divisor
      _ = 2 ^ (m₂.log2 + 53) := by rw [← Nat.pow_add]; congr 1; omega
      _ ≤ 2 ^ (m₁.log2 + (e₁ - e₂ - te).toNat) := Nat.pow_le_pow_right (by decide) far
      _ = 2 ^ m₁.log2 * 2 ^ (e₁ - e₂ - te).toNat := Nat.pow_add _ _ _
      _ ≤ m₁ * 2 ^ (e₁ - e₂ - te).toNat := Nat.mul_le_mul_right _ dividend
  have bits : 52 ≤ (m₁ <<< (e₁ - e₂ - te).toNat / m₂).log2 := (Nat.le_log2 (by omega)).mpr wide
  refine roundWithAccuracy_nearest (s₁ / s₂) (by omega) (target_of_log2 (.inl bits)) ?_
  have divided := accuracyOfFraction_approximates (q := m₁ <<< (e₁ - e₂ - te).toNat / m₂) (e := te)
    (Nat.mod_lt (m₁ <<< (e₁ - e₂ - te).toNat) h₂)
  convert divided using 1
  have divisor : (m₂ : ℚ) ≠ 0 := by exact_mod_cast h₂.ne'
  have exact : ((m₁ <<< (e₁ - e₂ - te).toNat / m₂ : Nat) : ℚ) + ((m₁ <<< (e₁ - e₂ - te).toNat % m₂ : Nat) : ℚ) / m₂ =
      ((m₁ <<< (e₁ - e₂ - te).toNat : Nat) : ℚ) / m₂ := by
    rw [eq_div_iff divisor, add_mul, div_mul_cancel₀ _ divisor]
    exact_mod_cast Nat.div_add_mod' _ _
  have back : (2 : ℚ) ^ (e₁ - e₂ - te).toNat * 2 ^ te = 2 ^ e₁ / 2 ^ e₂ := by
    rw [← zpow_natCast, ← zpow_add₀ (by norm_num), ← zpow_sub₀ (by norm_num)]
    congr 1
    omega
  rw [exact, Nat.shiftLeft_eq]
  push_cast
  calc (m₁ * 2 ^ e₁ / (m₂ * 2 ^ e₂) : ℚ) = m₁ / m₂ * (2 ^ e₁ / 2 ^ e₂) := by field_simp
    _ = m₁ / m₂ * (2 ^ (e₁ - e₂ - te).toNat * 2 ^ te) := by rw [back]
    _ = m₁ * 2 ^ (e₁ - e₂ - te).toNat / m₂ * 2 ^ te := by ring

end

end Scriptorium.Decimal

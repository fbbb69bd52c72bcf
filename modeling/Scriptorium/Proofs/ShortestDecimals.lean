import Scriptorium.Proofs.Numerals

/-!
# Shortest decimals

The shortest decimal of a double lies among the numbers that round to it: `ofBinary64_rounds`. The grid of seventeen
digits is finer than the gaps between doubles, so that the search for it succeeds.
-/
namespace Scriptorium.Decimal

namespace Binary64

/-- The value of a double, without its sign. -/
def value (b : Binary64) : ℚ := b.mantissa * 2 ^ b.exponent

/-- The least number that may round to a double. -/
def low (b : Binary64) : ℚ := (4 * b.mantissa - if b.isPowerOfTwo then 1 else 2) * 2 ^ (b.exponent - 2)

theorem value_eq (b : Binary64) : b.value = 4 * b.mantissa * 2 ^ (b.exponent - 2) := by
  rw [value, zpow_sub₀ (by norm_num)]
  norm_num
  ring

/-- The greatest number that may round to a double. -/
def high (b : Binary64) : ℚ := (4 * b.mantissa + 2) * 2 ^ (b.exponent - 2)

/-- A number rounds to a double; the ends of the interval do so when the mantissa is even. -/
def Rounds (b : Binary64) (r : ℚ) : Prop :=
  if b.mantissa % 2 = 0 then b.low ≤ r ∧ r ≤ b.high else b.low < r ∧ r < b.high

theorem Rounds.low_le {b : Binary64} {r : ℚ} (rounds : b.Rounds r) : b.low ≤ r := by
  unfold Rounds at rounds
  split at rounds
  · exact rounds.1
  · exact rounds.1.le

theorem Rounds.le_high {b : Binary64} {r : ℚ} (rounds : b.Rounds r) : r ≤ b.high := by
  unfold Rounds at rounds
  split at rounds
  · exact rounds.2
  · exact rounds.2.le

/-- A number strictly between the ends rounds to the double. -/
theorem rounds_of_lt {b : Binary64} {r : ℚ} (above : b.low < r) (below : r < b.high) : b.Rounds r := by
  unfold Rounds
  split
  · exact ⟨above.le, below.le⟩
  · exact ⟨above, below⟩

/-- The parts of a double as the format has them. -/
structure Canonical (b : Binary64) : Prop where
  bits : b.mantissa < 2 ^ 53
  least : -1074 ≤ b.exponent
  greatest : b.exponent ≤ 971
  normal : b.exponent = -1074 ∨ 2 ^ 52 ≤ b.mantissa
  power : b.isPowerOfTwo = true ↔ b.mantissa = 2 ^ 52 ∧ -1074 < b.exponent

end Binary64

namespace Shortest

variable {tie : Tie} {b : Binary64}

theorem pow_toNat {a : ℚ} (nonzero : a ≠ 0) (z : Int) : a ^ z.toNat = a ^ (-z).toNat * a ^ z := by
  rw [← zpow_natCast, ← zpow_natCast, ← zpow_add₀ nonzero]
  congr 1
  omega

/-- The factors by which the search makes natural numbers of the ends of an interval and of the points of a grid. -/
theorem scaling (b : Binary64) (exponent : Int) : ∃ c : ℚ, 0 < c ∧
    ((Nat.pow 10 (-exponent).toNat <<< (b.exponent - 2).toNat : Nat) : ℚ) = c * 2 ^ (b.exponent - 2) ∧
    ((Nat.pow 10 exponent.toNat <<< (-(b.exponent - 2)).toNat : Nat) : ℚ) = c * 10 ^ exponent := by
  refine ⟨10 ^ (-exponent).toNat * 2 ^ (-(b.exponent - 2)).toNat, by positivity, ?_, ?_⟩
  · rw [Nat.shiftLeft_eq, Nat.pow_eq]
    push_cast
    rw [pow_toNat (show (2 : ℚ) ≠ 0 by norm_num) (b.exponent - 2)]
    ring
  · rw [Nat.shiftLeft_eq, Nat.pow_eq]
    push_cast
    rw [pow_toNat (show (10 : ℚ) ≠ 0 by norm_num) exponent]
    ring

private theorem contains_iff (positive : 0 < b.mantissa) (exponent : Int) (digits : Nat) :
    (Interval.of b).contains (Nat.pow 10 (-exponent).toNat <<< (b.exponent - 2).toNat)
        (digits * (Nat.pow 10 exponent.toNat <<< (-(b.exponent - 2)).toNat)) = true ↔
      b.Rounds (digits * 10 ^ exponent) := by
  obtain ⟨c, above, unit, grid⟩ := scaling b exponent
  generalize Nat.pow 10 (-exponent).toNat <<< (b.exponent - 2).toNat = u at *
  generalize Nat.pow 10 exponent.toNat <<< (-(b.exponent - 2)).toNat = g at *
  have low : (((Interval.of b).low * u : Nat) : ℚ) = c * b.low := by
    rw [Nat.cast_mul, Interval.of, Nat.cast_sub (by split <;> omega), unit, Binary64.low]
    push_cast
    split <;> ring
  have high : (((Interval.of b).high * u : Nat) : ℚ) = c * b.high := by
    rw [Nat.cast_mul, Interval.of, unit, Binary64.high]
    push_cast
    ring
  have point : ((digits * g : Nat) : ℚ) = c * (digits * 10 ^ exponent) := by
    push_cast
    rw [grid]
    ring
  have closed : (Interval.of b).closed = true ↔ b.mantissa % 2 = 0 := beq_iff_eq
  unfold Interval.contains Binary64.Rounds
  by_cases even : b.mantissa % 2 = 0
  · rw [if_pos (closed.mpr even), if_pos even, Bool.and_eq_true, decide_eq_true_iff, decide_eq_true_iff,
      ← Nat.cast_le (α := ℚ), ← Nat.cast_le (α := ℚ), low, high, point,
      mul_le_mul_iff_right₀ above, mul_le_mul_iff_right₀ above]
  · rw [if_neg (fun other => even (closed.mp other)), if_neg even, Bool.and_eq_true, decide_eq_true_iff,
      decide_eq_true_iff, ← Nat.cast_lt (α := ℚ), ← Nat.cast_lt (α := ℚ), low, high, point,
      mul_lt_mul_iff_right₀ above, mul_lt_mul_iff_right₀ above]

/-- What the search finds on a grid rounds to the double. -/
theorem onGrid?_rounds (positive : 0 < b.mantissa) {exponent : Int} {digits : Nat}
    (found : onGrid? tie b exponent = some digits) : b.Rounds (digits * 10 ^ exponent) := by
  rw [← contains_iff positive]
  unfold onGrid? at found
  simp only at found
  split at found
  · rename_i both
    obtain ⟨below, above⟩ := Bool.and_eq_true_iff.mp both
    split at found
    · cases found
      exact below
    · split at found
      · cases found
        exact above
      · cases tie with
        | away =>
          cases found
          exact above
        | toEven =>
          simp only [Option.some.injEq] at found
          subst found
          split
          · exact below
          · exact above
  · split at found
    · rename_i below
      cases found
      exact below
    · split at found
      · rename_i above
        cases found
        exact above
      · cases found

private theorem strip_value (fuel : Nat) (d : Shortest) : (strip fuel d).value = d.value := by
  induction fuel generalizing d with
  | zero => rfl
  | succ fuel ih =>
    rw [strip]
    split
    · rename_i zero
      rw [ih, value, value]
      have exact : d.digits = 10 * (d.digits / 10) := by omega
      have split : (10 : ℚ) ^ (d.exponent + 1) = 10 ^ d.exponent * 10 := zpow_add_one₀ (by norm_num) _
      rw [split]
      conv_rhs => rw [exact]
      push_cast
      ring
    · rfl

/-- The search gives up or finds a decimal that rounds to the double. -/
theorem search_rounds (positive : 0 < b.mantissa) (finest : Int) (steps : Nat) :
    (b.Rounds (search tie b finest steps).value) ∨
      (search tie b finest steps = ⟨b.mantissa, 0⟩ ∧ ∀ step < steps, onGrid? tie b (finest + step) = none) := by
  induction steps with
  | zero => exact .inr ⟨rfl, nofun⟩
  | succ steps ih =>
    rw [search]
    cases found : onGrid? tie b (finest + steps) with
    | some digits =>
      refine .inl ?_
      rw [strip_value, value]
      exact onGrid?_rounds positive found
    | none =>
      rcases ih with rounds | ⟨same, missed⟩
      · exact .inl rounds
      · refine .inr ⟨same, fun step below => ?_⟩
        rcases Nat.lt_succ_iff_lt_or_eq.mp below with earlier | rfl
        · exact missed step earlier
        · exact found

private theorem shift_pos (n k : Nat) : 0 < Nat.pow 10 n <<< k := by
  rw [Nat.shiftLeft_eq, Nat.pow_eq]
  positivity

theorem onGrid?_none_neighbours (positive : 0 < b.mantissa) {exponent : Int} (missed : onGrid? tie b exponent = none) :
    ∃ digits : Nat, (digits * 10 ^ exponent : ℚ) ≤ b.value ∧ b.value < (digits + 1 : Nat) * 10 ^ exponent ∧
      ¬ b.Rounds (digits * 10 ^ exponent) ∧ ¬ b.Rounds ((digits + 1 : Nat) * 10 ^ exponent) := by
  obtain ⟨c, above, unit, grid⟩ := scaling b exponent
  have gridPositive := shift_pos exponent.toNat (-(b.exponent - 2)).toNat
  have scaled : ((4 * b.mantissa * (Nat.pow 10 (-exponent).toNat <<< (b.exponent - 2).toNat) : Nat) : ℚ) = c * b.value := by
    rw [Nat.cast_mul, unit, Binary64.value_eq]
    push_cast
    ring
  refine ⟨4 * b.mantissa * (Nat.pow 10 (-exponent).toNat <<< (b.exponent - 2).toNat) /
    (Nat.pow 10 exponent.toNat <<< (-(b.exponent - 2)).toNat), ?_, ?_, ?_⟩
  · rw [← mul_le_mul_iff_right₀ above, ← scaled, mul_left_comm, ← grid, ← Nat.cast_mul, Nat.cast_le]
    exact Nat.div_mul_le_self _ _
  · rw [← mul_lt_mul_iff_right₀ above, ← scaled, mul_left_comm, ← grid, ← Nat.cast_mul, Nat.cast_lt]
    exact (Nat.lt_mul_div_succ _ gridPositive).trans_eq (Nat.mul_comm _ _)
  · rw [← contains_iff positive, ← contains_iff positive]
    unfold onGrid? at missed
    simp only at missed
    split at missed
    · split at missed
      · cases missed
      · split at missed
        · cases missed
        · cases tie <;> cases missed
    · split at missed
      · cases missed
      · split at missed
        · cases missed
        · rename_i below next
          exact ⟨below, next⟩

/-- Where a grid is missed, its gaps are at least as wide as the interval. -/
theorem onGrid?_none (positive : 0 < b.mantissa) {exponent : Int} (missed : onGrid? tie b exponent = none) :
    b.high - b.low ≤ 10 ^ exponent := by
  obtain ⟨digits, floor, ceiling, below, next⟩ := onGrid?_none_neighbours positive missed
  have width : (0 : ℚ) < 2 ^ (b.exponent - 2) := by positivity
  have lowBelow : b.low < b.value := by
    rw [Binary64.value_eq, Binary64.low]
    refine mul_lt_mul_of_pos_right ?_ width
    split <;> linarith
  have highAbove : b.value < b.high := by
    rw [Binary64.value_eq, Binary64.high]
    refine mul_lt_mul_of_pos_right ?_ width
    linarith
  have lower : (digits * 10 ^ exponent : ℚ) ≤ b.low := by
    by_contra other
    exact below (Binary64.rounds_of_lt (not_le.mp other) (floor.trans_lt highAbove))
  have upper : b.high ≤ ((digits + 1 : Nat) * 10 ^ exponent : ℚ) := by
    by_contra other
    exact next (Binary64.rounds_of_lt (lowBelow.trans ceiling) (not_le.mp other))
  push_cast at upper
  linarith

private theorem pow_width_le {n : Nat} (positive : n ≠ 0) : 10 ^ (width n - 1) ≤ n := by
  by_contra other
  have long : 0 < width n := Nat.length_toDigits_pos
  by_cases single : width n = 1
  · rw [single] at other
    omega
  · have short := (Nat.length_toDigits_le_iff (show 1 < 10 by decide) (show 0 < width n - 1 by omega)).mpr (not_le.mp other)
    have same : (Nat.toDigits 10 n).length = width n := rfl
    omega

private theorem lt_pow_width (n : Nat) : n < 10 ^ width n :=
  (Nat.length_toDigits_le_iff (by decide) Nat.length_toDigits_pos).mp (Nat.le_refl _)

theorem scaled_value (n : Nat) (e : Int) :
    ((Ratio.scaled n e).numerator : ℚ) / (Ratio.scaled n e).denominator = n * 2 ^ e ∧
      0 < (Ratio.scaled n e).denominator ∧ (0 < n → 0 < (Ratio.scaled n e).numerator) := by
  unfold Ratio.scaled
  split
  · rename_i above
    refine ⟨?_, by simp, fun positive => by simp only [Nat.shiftLeft_eq]; positivity⟩
    simp only [Nat.shiftLeft_eq]
    obtain ⟨k, rfl⟩ := Int.eq_ofNat_of_zero_le above
    simp
  · rename_i below
    refine ⟨?_, by simp only [Nat.shiftLeft_eq]; positivity, fun positive => positive⟩
    simp only [Nat.shiftLeft_eq]
    obtain ⟨k, rfl⟩ : ∃ k : Nat, e = -(k : Int) := ⟨(-e).toNat, by omega⟩
    simp [div_eq_mul_inv]

/-- A number has at least its magnitude. -/
theorem magnitude_le {n : Nat} (positive : 0 < n) (e : Int) :
    (10 : ℚ) ^ ((Ratio.scaled n e).magnitude - 1) ≤ n * 2 ^ e := by
  obtain ⟨same, denominator, numerator⟩ := scaled_value n e
  have above := numerator positive
  rw [← same]
  generalize Ratio.scaled n e = r at *
  have cast : (0 : ℚ) < r.denominator := by exact_mod_cast denominator
  unfold Ratio.magnitude
  split
  · rename_i great
    have least := pow_width_le (Nat.div_pos great denominator).ne'
    have long : 0 < width (r.numerator / r.denominator) := Nat.length_toDigits_pos
    have whole : ((width (r.numerator / r.denominator) : Int) - 1) =
        ((width (r.numerator / r.denominator) - 1 : Nat) : Int) := by omega
    rw [whole, zpow_natCast, le_div_iff₀ cast]
    have scaled := (Nat.le_div_iff_mul_le denominator).mp least
    exact_mod_cast scaled
  · rename_i small
    have most := lt_pow_width ((r.denominator - 1) / r.numerator)
    rw [Nat.div_lt_iff_lt_mul above] at most
    have exponent : (1 - (width ((r.denominator - 1) / r.numerator) : Int) - 1) =
        -(width ((r.denominator - 1) / r.numerator) : Int) := by omega
    rw [exponent, zpow_neg, zpow_natCast, inv_eq_one_div, div_le_div_iff₀ (by positivity) cast, one_mul]
    have scaled : r.denominator ≤ r.numerator * 10 ^ width ((r.denominator - 1) / r.numerator) := by
      rw [Nat.mul_comm]
      omega
    exact_mod_cast scaled

/-- The shortest decimal of a double rounds to it. -/
theorem ofBinary64_rounds (tie : Tie) (canonical : b.Canonical) (positive : 0 < b.mantissa) :
    b.Rounds (ofBinary64 tie b).value := by
  rw [ofBinary64, if_neg positive.ne']
  rcases search_rounds positive ((Ratio.scaled b.mantissa b.exponent).magnitude - 17) 17 with rounds | ⟨-, missed⟩
  · exact rounds
  · exfalso
    have gaps := onGrid?_none positive (missed 0 (by decide))
    have least : _ ≤ b.value := magnitude_le positive b.exponent
    have finest : (10 : ℚ) ^ ((Ratio.scaled b.mantissa b.exponent).magnitude - 17 + (0 : Nat)) * 10 ^ (16 : Nat) =
        10 ^ ((Ratio.scaled b.mantissa b.exponent).magnitude - 1) := by
      rw [← zpow_natCast, ← zpow_add₀ (by norm_num)]
      congr 1
      push_cast
      ring
    rw [← finest] at least
    generalize (10 : ℚ) ^ ((Ratio.scaled b.mantissa b.exponent).magnitude - 17 + (0 : Nat)) = gap at *
    have width : (0 : ℚ) < 2 ^ (b.exponent - 2) := by positivity
    rw [Binary64.value_eq] at least
    rw [Binary64.high, Binary64.low] at gaps
    generalize (2 : ℚ) ^ (b.exponent - 2) = unit at *
    by_cases power : b.isPowerOfTwo = true
    · have mantissa := (canonical.power.mp power).1
      rw [if_pos power] at gaps
      rw [mantissa] at gaps least
      push_cast at gaps least
      nlinarith
    · have bits : (b.mantissa : ℚ) ≤ 2 ^ 53 := by exact_mod_cast canonical.bits.le
      rw [if_neg power] at gaps
      nlinarith

/-- Zero alone is written without any digit but zero. -/
theorem ofBinary64_plain (tie : Tie) (canonical : b.Canonical) (zero : (ofBinary64 tie b).digits = 0) :
    (ofBinary64 tie b).exponent = 0 := by
  by_cases none : b.mantissa = 0
  · rw [ofBinary64, if_pos none]
  · exfalso
    have positive : 0 < b.mantissa := Nat.pos_of_ne_zero none
    have above := (ofBinary64_rounds tie canonical positive).low_le
    rw [value, zero, Nat.cast_zero, zero_mul, Binary64.low] at above
    have one : (1 : ℚ) ≤ b.mantissa := by exact_mod_cast positive
    have width : (0 : ℚ) < 2 ^ (b.exponent - 2) := by positivity
    have lowPositive : (0 : ℚ) < 4 * b.mantissa - if b.isPowerOfTwo then 1 else 2 := by
      split <;> linarith
    exact absurd (mul_pos lowPositive width) (not_lt.mpr above)

end Shortest

end Scriptorium.Decimal

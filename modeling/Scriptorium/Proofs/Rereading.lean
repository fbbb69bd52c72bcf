import Scriptorium.Json.Number
import Scriptorium.Proofs.Doubles

/-!
# Rereading

What becomes of a number that is written to an artifact and read again. Every finite number reads again as some number
(`reread?_isSome`). It is the same number when its digits, those after the point included, stay below `2 ^ 53` and no
more than twenty-two places are between them and the point (`reread?_same`).
-/
namespace Scriptorium.Decimal

section
variable {b c : Binary64} {r : ℚ} {M : Nat} {t : Int}

theorem Grid.unique {t' : Int} (grid : Grid t r) (grid' : Grid t' r) : t = t' := by
  have le : ∀ {u v : Int}, Grid u r → Grid v r → u ≤ v := by
    intro u v first second
    rcases first.2.2 with floor | above
    · exact floor ▸ second.1
    · have less := (zpow_lt_zpow_iff_right₀ (by norm_num : (1 : ℚ) < 2)).mp (above.trans_lt second.2.1)
      omega
  exact le_antisymm (le grid grid') (le grid' grid)

/-- A double adds at most one part in `2 ^ 53` to a number that it is nearest to. -/
theorem NearestTo.le (nearest : NearestTo r b) (normal : 2 ^ (-1022 : Int) ≤ r) :
    b.value ≤ r * (1 + 1 / 2 ^ (53 : Nat)) := by
  obtain ⟨-, M, t, grid, near, value⟩ := nearest
  have above : (2 : ℚ) ^ (t + 52) ≤ r := by
    rcases grid.2.2 with floor | above
    · rw [floor]
      exact normal
    · exact above
  rw [add_comm, zpow_add₀ (by norm_num)] at above
  have lower := near.1
  rw [value]
  generalize (2 : ℚ) ^ t = unit at *
  have power : (2 : ℚ) ^ (52 : Int) = 2 ^ (52 : Nat) := rfl
  rw [power] at above
  linarith

theorem NearestTo.half_le (nearest : NearestTo r b) : r / 2 ≤ b.value := by
  obtain ⟨full, M, t, -, near, value⟩ := nearest
  have unit := two_zpow_pos t
  have above : (0 : ℚ) < b.value := mul_pos (by exact_mod_cast Nat.lt_of_lt_of_le (by decide) full) (two_zpow_pos _)
  rw [value] at above ⊢
  have some : 0 < M := by
    by_contra none
    have zero : M = 0 := by omega
    rw [zero, Nat.cast_zero, zero_mul] at above
    exact lt_irrefl _ above
  have one : (1 : ℚ) ≤ M := by exact_mod_cast some
  have upper := near.2.1
  nlinarith

private theorem two_zpow_eq (e : Int) : (2 : ℚ) ^ e = 4 * 2 ^ (e - 2) := by
  rw [zpow_sub₀ (by norm_num)]
  norm_num
  ring

private theorem zpow_eq_two_mul (e : Int) : (2 : ℚ) ^ e = 2 * 2 ^ (e - 1) := by
  rw [← two_zpow_succ]
  congr 1
  omega

/-- The ends of the interval in terms of the last place. -/
theorem Binary64.low_eq (b : Binary64) :
    b.low = (b.mantissa - if b.isPowerOfTwo then 1 / 4 else 1 / 2) * 2 ^ b.exponent := by
  rw [Binary64.low, two_zpow_eq b.exponent]
  split <;> ring

theorem Binary64.high_eq (b : Binary64) : b.high = (b.mantissa + 1 / 2) * 2 ^ b.exponent := by
  rw [Binary64.high, two_zpow_eq b.exponent]
  ring

/-- A number that rounds to a double lies on its grid, or just below a power of two on the finer one. -/
theorem Binary64.Rounds.grid (canonical : b.Canonical) (rounds : b.Rounds r) :
    Grid b.exponent r ∨ b.isPowerOfTwo = true ∧ Grid (b.exponent - 1) r ∧ r < 2 ^ (52 : Nat) * 2 ^ b.exponent := by
  have unit := two_zpow_pos b.exponent
  have bits : (b.mantissa : ℚ) + 1 ≤ 2 ^ (53 : Nat) := by exact_mod_cast canonical.bits
  have upper := rounds.le_high
  have lower := rounds.low_le
  rw [Binary64.high_eq] at upper
  rw [Binary64.low_eq] at lower
  have below : r < 2 ^ (b.exponent + 53) := by
    rw [add_comm, zpow_add₀ (by norm_num)]
    have power : (2 : ℚ) ^ (53 : Int) = 2 ^ (53 : Nat) := rfl
    rw [power]
    nlinarith
  by_cases floor : b.exponent = -1074
  · exact .inl ⟨canonical.least, below, .inl floor⟩
  · have full := canonical.normal.resolve_left floor
    have cast : (2 : ℚ) ^ (52 : Nat) ≤ b.mantissa := by exact_mod_cast full
    by_cases above : (2 : ℚ) ^ (b.exponent + 52) ≤ r
    · exact .inl ⟨canonical.least, below, .inr above⟩
    · rw [add_comm, zpow_add₀ (by norm_num), not_le] at above
      have power : (2 : ℚ) ^ (52 : Int) = 2 ^ (52 : Nat) := rfl
      rw [power] at above
      have edge : b.isPowerOfTwo = true := by
        by_contra other
        rw [if_neg other] at lower
        have next : b.mantissa = 2 ^ 52 ∨ 2 ^ 52 + 1 ≤ b.mantissa := by omega
        rcases next with same | greater
        · exact other (canonical.power.mpr ⟨same, lt_of_le_of_ne canonical.least (Ne.symm floor)⟩)
        · have cast : (2 : ℚ) ^ (52 : Nat) + 1 ≤ b.mantissa := by exact_mod_cast greater
          nlinarith
      rw [if_pos edge] at lower
      have half := zpow_eq_two_mul b.exponent
      have finer : (0 : ℚ) < 2 ^ (b.exponent - 1) := two_zpow_pos _
      refine .inr ⟨edge, ⟨by have := canonical.least; omega, ?_, .inr ?_⟩, above⟩
      · have same : b.exponent - 1 + 53 = 52 + b.exponent := by ring
        rw [same, zpow_add₀ (by norm_num)]
        exact above
      · have same : b.exponent - 1 + 52 = 52 + (b.exponent - 1) := by ring
        rw [same, zpow_add₀ (by norm_num), power]
        rw [half] at lower
        generalize (2 : ℚ) ^ (b.exponent - 1) = u at *
        nlinarith

/-- On the grid of a double, what is nearest to a number that rounds to the double is its mantissa. -/
theorem Binary64.Rounds.nearest_eq (rounds : b.Rounds r) (near : Nearest M b.exponent r) : M = b.mantissa := by
  obtain ⟨lower, upper, strict⟩ := near
  have unit := two_zpow_pos b.exponent
  have least := rounds.low_le
  have most := rounds.le_high
  have ends : b.mantissa % 2 = 1 → b.low < r ∧ r < b.high := by
    intro odd
    unfold Binary64.Rounds at rounds
    rw [if_neg (by omega)] at rounds
    exact rounds
  rw [Binary64.low_eq, Binary64.high_eq] at ends
  rw [Binary64.low_eq] at least
  rw [Binary64.high_eq] at most
  have wide : (b.mantissa - 1 / 2 : ℚ) * 2 ^ b.exponent ≤
      (b.mantissa - if b.isPowerOfTwo then 1 / 4 else 1 / 2) * 2 ^ b.exponent := by
    refine mul_le_mul_of_nonneg_right ?_ unit.le
    split <;> linarith
  generalize (2 : ℚ) ^ b.exponent = u at *
  have above : (M : ℚ) - 1 / 2 ≤ b.mantissa + 1 / 2 := le_of_mul_le_mul_right (lower.trans most) unit
  have under : (b.mantissa : ℚ) - 1 / 2 ≤ M + 1 / 2 := le_of_mul_le_mul_right (wide.trans (least.trans upper)) unit
  have above' : (M : ℚ) ≤ (b.mantissa + 1 : Nat) := by
    push_cast
    linarith
  have under' : (b.mantissa : ℚ) ≤ (M + 1 : Nat) := by
    push_cast
    linarith
  rw [Nat.cast_le] at above' under'
  -- two neighbours are nearest only to the middle between them, and then the odd one is not
  by_contra other
  have neighbours : M = b.mantissa + 1 ∨ b.mantissa = M + 1 := by omega
  rcases neighbours with up | down
  · have cast : (M : ℚ) = b.mantissa + 1 := by exact_mod_cast up
    by_cases odd : M % 2 = 1
    · have inside := (strict odd).1
      rw [cast] at inside
      nlinarith
    · have inside := (ends (by omega)).2
      rw [cast] at lower
      nlinarith
  · have cast : (b.mantissa : ℚ) = M + 1 := by exact_mod_cast down
    by_cases odd : M % 2 = 1
    · have inside := (strict odd).2
      rw [cast] at wide least
      nlinarith
    · have inside := (ends (by omega)).1
      rw [cast] at wide inside
      nlinarith

/-- Below a power of two, what is nearest on the finer grid to a number that rounds to the power is the power. -/
theorem Binary64.Rounds.nearest_finer_eq (canonical : b.Canonical) (rounds : b.Rounds r) (edge : b.isPowerOfTwo = true)
    (below : r < 2 ^ (52 : Nat) * 2 ^ b.exponent) (near : Nearest M (b.exponent - 1) r) : M = 2 ^ 53 := by
  obtain ⟨lower, upper, strict⟩ := near
  have least := rounds.low_le
  rw [Binary64.low_eq, if_pos edge, (canonical.power.mp edge).1, zpow_eq_two_mul] at least
  rw [zpow_eq_two_mul] at below
  have unit := two_zpow_pos (b.exponent - 1)
  generalize (2 : ℚ) ^ (b.exponent - 1) = u at *
  push_cast at least
  have above : (M : ℚ) - 1 / 2 < 2 ^ (53 : Nat) := by
    refine lt_of_mul_lt_mul_right (lower.trans_lt below |>.trans_eq ?_) unit.le
    ring
  have under : (2 : ℚ) ^ (53 : Nat) - 1 / 2 ≤ M + 1 / 2 := by
    refine le_of_mul_le_mul_right (le_trans (le_of_eq ?_) (least.trans upper)) unit
    ring
  have above' : (M : ℚ) < (2 ^ 53 + 1 : Nat) := by
    push_cast
    linarith
  have under' : ((2 ^ 53 - 1 : Nat) : ℚ) ≤ M := by
    rw [Nat.cast_sub (by norm_num)]
    push_cast
    linarith
  rw [Nat.cast_lt] at above'
  rw [Nat.cast_le] at under'
  by_contra other
  have last : M = 2 ^ 53 - 1 := by omega
  have inside := (strict (by omega)).2
  rw [last, Nat.cast_sub (by norm_num)] at inside
  push_cast at inside
  nlinarith

/-- What is nearest to a number that rounds to a double is that double. -/
theorem Binary64.Rounds.value_eq (canonical : b.Canonical) (rounds : b.Rounds r) (grid : Grid t r) (near : Nearest M t r) :
    b.value = M * 2 ^ t := by
  rcases rounds.grid canonical with same | ⟨edge, finer, below⟩
  · obtain rfl := grid.unique same
    rw [Binary64.value, rounds.nearest_eq near]
  · obtain rfl := grid.unique finer
    rw [Binary64.value, (canonical.power.mp edge).1, rounds.nearest_finer_eq canonical edge below near, zpow_eq_two_mul]
    push_cast
    ring

/-- Doubles of one value have the same mantissa and the same exponent. -/
theorem Binary64.Canonical.ext (first : b.Canonical) (second : c.Canonical) (positive : 0 < b.mantissa)
    (same : b.value = c.value) : b.mantissa = c.mantissa ∧ b.exponent = c.exponent := by
  have le : ∀ {x y : Binary64}, x.Canonical → y.Canonical → 0 < x.mantissa → x.value = y.value → y.exponent ≤ x.exponent := by
    intro x y fits fits' some equal
    by_contra other
    have full := fits'.normal.resolve_left (by have := fits.least; omega)
    have unit := two_zpow_pos x.exponent
    have split : (2 : ℚ) ^ y.exponent = 2 ^ (y.exponent - x.exponent) * 2 ^ x.exponent := by
      rw [← zpow_add₀ (by norm_num)]
      congr 1
      omega
    have factor : (2 : ℚ) ≤ 2 ^ (y.exponent - x.exponent) := by
      have step : (2 : ℚ) ^ (1 : Int) ≤ 2 ^ (y.exponent - x.exponent) := zpow_le_zpow_right₀ (by norm_num) (by omega)
      rwa [zpow_one] at step
    rw [Binary64.value, Binary64.value, split, ← mul_assoc] at equal
    have mantissa := mul_right_cancel₀ unit.ne' equal
    have bits : (x.mantissa : ℚ) < 2 ^ (53 : Nat) := by exact_mod_cast fits.bits
    have cast : (2 : ℚ) ^ (52 : Nat) ≤ y.mantissa := by exact_mod_cast full
    nlinarith
  have some : 0 < c.mantissa := by
    by_contra none
    have zero : c.mantissa = 0 := by omega
    rw [Binary64.value, Binary64.value, zero, Nat.cast_zero, zero_mul] at same
    have cast : (0 : ℚ) < b.mantissa := by exact_mod_cast positive
    exact absurd same (mul_pos cast (two_zpow_pos _)).ne'
  have exponents := le_antisymm (le second first some same.symm) (le first second positive same)
  refine ⟨?_, exponents⟩
  rw [Binary64.value, Binary64.value, exponents] at same
  exact_mod_cast mul_right_cancel₀ (two_zpow_pos _).ne' same

end

private theorem ofDigits_lt {digits : List Char} (all : ∀ c ∈ digits, c.isDigit = true) : ofDigits digits < 10 ^ digits.length := by
  induction digits with
  | nil => decide
  | cons c digits ih =>
    have later := ih fun other member => all other (List.mem_cons_of_mem _ member)
    have bounds := Json.Tree.isDigit_lt (all c List.mem_cons_self)
    have single : ofDigits [c] = digitValue c := by simp [ofDigits]
    have first : digitValue c ≤ 9 := by
      unfold digitValue
      have nine : '9'.toNat = '0'.toNat + 9 := rfl
      omega
    rw [← List.singleton_append, ofDigits_append, single, List.length_append, List.length_singleton, Nat.add_comm 1,
      Nat.pow_succ]
    nlinarith

end Scriptorium.Decimal

namespace Scriptorium.Json

open Decimal

private theorem takeDigits_spec (n : Nat) (digits : List Char) : ∃ taken dropped, digits = taken ++ dropped ∧
    takeDigits n digits = (n * 10 ^ taken.length + ofDigits taken, dropped) ∧
    (n ≤ maxInteger → n * 10 ^ taken.length + ofDigits taken ≤ maxInteger) := by
  induction digits generalizing n with
  | nil => exact ⟨[], [], rfl, by simp [takeDigits, ofDigits], by simp [ofDigits]⟩
  | cons c digits ih =>
    rw [takeDigits]
    split
    · rename_i fits
      obtain ⟨taken, dropped, same, read, most⟩ := ih (10 * n + digitValue c)
      have value : (10 * n + digitValue c) * 10 ^ taken.length + ofDigits taken =
          n * 10 ^ (c :: taken).length + ofDigits (c :: taken) := by
        have single : ofDigits [c] = digitValue c := by simp [ofDigits]
        rw [← List.singleton_append, ofDigits_append, single, List.length_append, List.length_singleton, Nat.add_comm 1,
          Nat.pow_succ]
        ring
      rw [value] at read most
      exact ⟨c :: taken, dropped, by rw [same, List.cons_append], read, fun _ => most fits⟩
    · exact ⟨[], c :: digits, rfl, by simp [ofDigits], by simp [ofDigits]⟩

/-- Digits that fit into 64 bits together are all taken. -/
theorem takeDigits_all {n : Nat} {digits : List Char} (fits : n * 10 ^ digits.length + ofDigits digits ≤ maxInteger) :
    takeDigits n digits = (n * 10 ^ digits.length + ofDigits digits, []) := by
  induction digits generalizing n with
  | nil => simp [takeDigits, ofDigits]
  | cons c digits ih =>
    have value : (10 * n + digitValue c) * 10 ^ digits.length + ofDigits digits =
        n * 10 ^ (c :: digits).length + ofDigits (c :: digits) := by
      have single : ofDigits [c] = digitValue c := by simp [ofDigits]
      rw [← List.singleton_append, ofDigits_append, single, List.length_append, List.length_singleton, Nat.add_comm 1,
        Nat.pow_succ]
      ring
    rw [← value] at fits ⊢
    rw [takeDigits]
    have first : 10 * n + digitValue c ≤ maxInteger := by
      have power : 1 ≤ 10 ^ digits.length := Nat.one_le_pow _ _ (by decide)
      nlinarith
    rw [if_pos first, ih fits]

/-! ## Scaling -/

private theorem powerOfTen_parts {e : Nat} (short : e ≤ 308) :
    ∃ b, Binary64.parts? (powerOfTen e) = some b ∧ b.negative = false ∧ NearestTo (10 ^ e) b := by
  have bounded := cast_lt_tooGreat (Nat.le_refl (10 ^ e)) short
  have one : ((1 : Nat) * 10 ^ e : ℚ) = (10 ^ e : Nat) := by simp
  rw [← one] at bounded
  obtain ⟨b, parts, sign, nearest⟩ := parts?_nearest one_pos (by decide) short bounded
  rw [Nat.cast_one, one_mul] at nearest
  exact ⟨b, parts, sign, nearest⟩

private theorem scale_of_neg {x : Float} {e : Int} (least : -308 ≤ e) (negative : e < 0) :
    scale x e = some (x / powerOfTen (-e).toNat) := by
  rw [scale, if_neg (by simp only [maxPower]; omega), if_pos negative]

private theorem scale_of_nonneg {x : Float} {e : Int} (nonneg : 0 ≤ e) (most : e ≤ 308) :
    scale x e = if (x * powerOfTen e.toNat).isInf then none else some (x * powerOfTen e.toNat) := by
  rw [scale, if_neg (by simp only [maxPower]; omega), if_neg (by omega), if_neg (by simp only [maxPower]; omega)]

/-- To scale down never fails. -/
theorem scale_isSome_of_neg (x : Float) {e : Int} (negative : e < 0) : (scale x e).isSome = true := by
  by_cases least : -308 ≤ e
  · rw [scale_of_neg least negative]
    rfl
  · rw [scale, if_pos (by simp only [maxPower]; omega)]
    split
    · rfl
    · exact scale_isSome_of_neg _ (by simp only [maxPower]; omega)
termination_by (-e).toNat
decreasing_by
  simp only [maxPower] at *
  omega

/-- What numbers that are written may come to, but for the three greatest doubles. -/
def reachable : ℚ := (2 ^ 53 - 7 / 2) * 2 ^ (971 : Int)

private theorem reachable_lt : reachable * (1 + 1 / 2 ^ (53 : Nat)) ^ 2 < tooGreat := by
  have unit := two_zpow_pos 971
  rw [reachable, tooGreat, mul_right_comm]
  refine mul_lt_mul_of_pos_right ?_ unit
  norm_num

private theorem reachable_lt_pow : reachable < 10 ^ 309 := by
  have great : ((2 ^ 53 * 2 ^ 971 : Nat) : ℚ) < ((10 ^ 309 : Nat) : ℚ) := Nat.cast_lt.mpr tooGreat_between.2
  rw [Nat.cast_mul, Nat.cast_pow 2 971, Nat.cast_pow 10 309, Nat.cast_ofNat, Nat.cast_ofNat] at great
  have power : (2 : ℚ) ^ (971 : Int) = 2 ^ 971 := rfl
  have less : ((2 : ℚ) ^ 53 - 7 / 2) ≤ ((2 ^ 53 : Nat) : ℚ) := by norm_num
  rw [reachable, power]
  exact lt_of_le_of_lt (mul_le_mul_of_nonneg_right less (pow_nonneg (by norm_num) 971)) great

theorem nearest_zero : Binary64.parts? (nearest 0 0) = some ⟨false, 0, -1074, false⟩ ∧ (nearest 0 0 == 0.0) = true := by
  decide +kernel

/-- Zero is scaled up to zero. -/
theorem scale_zero_isSome (n : Nat) : (scale (nearest 0 0) n).isSome = true := by
  by_cases short : n ≤ 308
  · obtain ⟨b, parts, -, nearest⟩ := powerOfTen_parts short
    obtain ⟨s, unpacked, -⟩ := unpack_of_zero nearest_zero.1 rfl
    obtain ⟨s', unpacked', -⟩ := unpack_of_parts parts (Nat.lt_of_lt_of_le (by decide) nearest.1)
    have product : Binary64.parts? (Decimal.nearest 0 0 * powerOfTen n) = some ⟨s * s' == .negative, 0, -1074, false⟩ := by
      rw [← parts?_pack_zero]
      show Binary64.parts? (Float.ofModel (Float.Model.pack (Float.Model.UnpackedFloat.mul Float.Model.Format.binary64
        (Decimal.nearest 0 0).toModel.unpack (powerOfTen n).toModel.unpack))) = _
      rw [unpacked, unpacked']
      rfl
    rw [scale_of_nonneg (Int.natCast_nonneg n) (by omega), Int.toNat_natCast, isInf_of_parts product]
    rfl
  · rw [scale, if_neg (by simp only [maxPower]; omega), if_neg (by omega), if_pos (by simp only [maxPower]; omega),
      if_pos nearest_zero.2]
    rfl

/-- Two roundings, to the digits and to the power of ten, leave what was reachable below what is too great. -/
theorem scaled_bounds {digits n : Nat} {a b : Binary64} (positive : 0 < digits) (nearest : NearestTo digits a)
    (nearest' : NearestTo (10 ^ n) b) (bounded : (digits * 10 ^ n : ℚ) ≤ reachable) :
    (2 : ℚ) ^ (-1022 : Int) ≤ a.value * b.value ∧ a.value * b.value < tooGreat := by
  have one : (1 : ℚ) ≤ digits := by exact_mod_cast positive
  have ten : (1 : ℚ) ≤ 10 ^ n := one_le_pow₀ (by norm_num)
  have most := nearest.le (natural_bounds positive)
  have most' := nearest'.le (by exact_mod_cast natural_bounds (Nat.pow_pos (n := n) (show 0 < 10 by decide)))
  have least := nearest.half_le
  have least' := nearest'.half_le
  constructor
  · have quarter : (2 : ℚ) ^ (-1022 : Int) ≤ 2 ^ (-2 : Int) := zpow_le_zpow_right₀ (by norm_num) (by norm_num)
    have first : (1 / 2 : ℚ) ≤ a.value := by linarith
    have second : (1 / 2 : ℚ) ≤ b.value := by linarith
    have product : (1 / 2 * (1 / 2) : ℚ) ≤ a.value * b.value := mul_le_mul first second (by norm_num) (by linarith)
    have value : (2 : ℚ) ^ (-2 : Int) = 1 / 2 * (1 / 2) := by norm_num
    exact quarter.trans (value.le.trans product)
  · refine lt_of_le_of_lt ?_ reachable_lt
    have excess : (0 : ℚ) ≤ 1 + 1 / 2 ^ (53 : Nat) := by positivity
    calc a.value * b.value ≤ digits * (1 + 1 / 2 ^ (53 : Nat)) * (10 ^ n * (1 + 1 / 2 ^ (53 : Nat))) :=
          mul_le_mul most most' (by linarith) (mul_nonneg (by linarith) excess)
      _ = digits * 10 ^ n * (1 + 1 / 2 ^ (53 : Nat)) ^ 2 := by ring
      _ ≤ reachable * (1 + 1 / 2 ^ (53 : Nat)) ^ 2 := mul_le_mul_of_nonneg_right bounded (by positivity)

/-- Digits scaled to a number that is not too great are a number. -/
theorem scale_isSome {digits : Nat} {e : Int} (word : digits ≤ maxInteger) (bounded : (digits * 10 ^ e : ℚ) ≤ reachable) :
    (scale (nearest digits 0) e).isSome = true := by
  by_cases negative : e < 0
  · exact scale_isSome_of_neg _ negative
  have nonneg : 0 ≤ e := not_lt.mp negative
  obtain ⟨n, rfl⟩ := Int.eq_ofNat_of_zero_le nonneg
  rcases Nat.eq_zero_or_pos digits with rfl | positive
  · exact scale_zero_isSome n
  rw [zpow_natCast] at bounded
  have short : n ≤ 308 := by
    by_contra long
    have one : (1 : ℚ) ≤ digits := by exact_mod_cast positive
    have great : (10 : ℚ) ^ 309 ≤ 10 ^ n := pow_le_pow_right₀ (by norm_num) (by omega)
    have whole : (10 : ℚ) ^ n ≤ digits * 10 ^ n := le_mul_of_one_le_left (by positivity) one
    exact absurd (great.trans (whole.trans bounded)) (not_le.mpr reachable_lt_pow)
  have small : (digits * 10 ^ 0 : ℚ) < tooGreat := by
    have few : maxInteger ≤ 10 ^ 20 := by decide
    simpa using cast_lt_tooGreat (word.trans few) (by decide)
  obtain ⟨a, left, -, nearest⟩ := parts?_nearest positive (Nat.lt_of_le_of_lt word (by decide)) (Nat.zero_le 308) small
  obtain ⟨b, right, -, nearest'⟩ := powerOfTen_parts short
  rw [pow_zero, mul_one] at nearest
  obtain ⟨normal, below⟩ := scaled_bounds positive nearest nearest' bounded
  obtain ⟨c, product, -⟩ := parts?_mul left right nearest.1 (Nat.lt_of_lt_of_le (by decide) nearest'.1) normal below
  rw [scale_of_nonneg nonneg (by omega), Int.toNat_natCast]
  have same : (Decimal.nearest digits 0 * powerOfTen n).isInf = false := isInf_of_parts product
  rw [same]
  rfl

/-- What is read of a numeral whose digits before the point fit into 64 bits: as many of the others as fit as well. -/
theorem toDouble?_eq {n : Numeral} (fits : ofDigits n.whole ≤ maxInteger) : ∃ taken dropped, n.fraction = taken ++ dropped ∧
    ofDigits (n.whole ++ taken) ≤ maxInteger ∧
    toDouble? n = (scale (nearest (ofDigits (n.whole ++ taken)) 0)
      (n.exponent.elim 0 power - (taken.length : Int))).map fun x => if n.negative then -x else x := by
  obtain ⟨taken, dropped, same, read, most⟩ := takeDigits_spec (ofDigits n.whole) n.fraction
  have whole : takeDigits 0 n.whole = (ofDigits n.whole, []) := by
    rw [takeDigits_all (by simpa using fits)]
    simp
  refine ⟨taken, dropped, same, by rw [ofDigits_append]; exact most fits, ?_⟩
  have shift : ((0 : Nat) : Int) - ((n.fraction.length : Int) - (dropped.length : Int)) + n.exponent.elim 0 power =
      n.exponent.elim 0 power - (taken.length : Int) := by
    rw [same, List.length_append]
    push_cast
    ring
  unfold toDouble?
  simp only [whole, read, List.length_nil, shift, ← ofDigits_append]
  cases scale (nearest (ofDigits (n.whole ++ taken)) 0) (n.exponent.elim 0 power - (taken.length : Int)) <;> rfl

/-- Of a numeral whose digits fit into 64 bits all are read. -/
theorem toDouble?_all {n : Numeral} (fits : n.digits ≤ maxInteger) :
    toDouble? n = (scale (nearest n.digits 0) n.places).map fun x => if n.negative then -x else x := by
  rw [Numeral.digits, ofDigits_append] at fits
  have power : 1 ≤ 10 ^ n.fraction.length := Nat.one_le_pow _ _ (by decide)
  have whole : takeDigits 0 n.whole = (ofDigits n.whole, []) := by
    rw [takeDigits_all (by rw [Nat.zero_mul, Nat.zero_add]; nlinarith)]
    simp
  have fraction := takeDigits_all fits
  rw [← ofDigits_append] at fraction
  have shift : ((0 : Nat) : Int) - ((n.fraction.length : Int) - ((0 : Nat) : Int)) + n.exponent.elim 0 Json.power =
      n.places := by
    rw [Numeral.places]
    push_cast
    ring
  unfold toDouble? Numeral.digits
  simp only [whole, fraction, List.length_nil, shift]
  cases scale (nearest (ofDigits (n.whole ++ n.fraction)) 0) n.places <;> rfl

/-- A numeral that is not too great stands for a double. -/
theorem toDouble?_isSome {n : Numeral} (fits : ofDigits n.whole ≤ maxInteger) (bounded : n.value ≤ reachable) :
    (toDouble? n).isSome = true := by
  obtain ⟨taken, dropped, same, word, read⟩ := toDouble?_eq fits
  have less : (ofDigits (n.whole ++ taken) * 10 ^ (n.exponent.elim 0 power - (taken.length : Int)) : ℚ) ≤ n.value := by
    have ten : (10 : ℚ) ^ (n.exponent.elim 0 power - (taken.length : Int)) =
        10 ^ dropped.length * 10 ^ (n.exponent.elim 0 power - (n.fraction.length : Int)) := by
      rw [← zpow_natCast, ← zpow_add₀ (by norm_num), same, List.length_append]
      congr 1
      push_cast
      ring
    have unit : (0 : ℚ) < 10 ^ (n.exponent.elim 0 power - (n.fraction.length : Int)) := by positivity
    rw [Numeral.value, Numeral.digits, Numeral.places, ten, ← mul_assoc]
    refine mul_le_mul_of_nonneg_right ?_ unit.le
    rw [same, ← List.append_assoc, ofDigits_append (n.whole ++ taken) dropped]
    push_cast
    have rest : (0 : ℚ) ≤ ofDigits dropped := by positivity
    linarith
  rw [read, Option.isSome_map]
  exact scale_isSome word (less.trans bounded)

/-- No numeral of an artifact has more than sixteen digits before its point. -/
theorem stored_whole {negative : Bool} {d : Shortest} (plain : d.digits = 0 → d.exponent = 0) :
    ofDigits (Layout.stored.arrange negative d).whole ≤ maxInteger := by
  have short : (Layout.stored.arrange negative d).whole.length ≤ 16 := by
    unfold Layout.arrange
    simp only [Layout.stored]
    split
    · rename_i places
      unfold Layout.pointed
      split
      · simp
      · split
        · simp only [List.length_append, List.length_replicate]
          omega
        · simp only [List.length_take]
          omega
    · simp only [Layout.exponential, List.length_take]
      omega
  have digits := ofDigits_lt (arrange_written Layout.stored negative plain).digits
  have most : 10 ^ (Layout.stored.arrange negative d).whole.length ≤ 10 ^ 16 := Nat.pow_le_pow_right (by decide) short
  have word : 10 ^ 16 ≤ maxInteger := by decide
  omega

end Scriptorium.Json

namespace Scriptorium.Decimal

open Json (reachable toDouble? toDouble?_all toDouble?_isSome stored_whole)

/-- The greatest doubles that are not too near to infinity. -/
theorem high_le_reachable {b : Binary64} (canonical : b.Canonical) (other : b.exponent = 971 → b.mantissa + 3 < 2 ^ 53) :
    b.high ≤ reachable := by
  rw [Binary64.high_eq, reachable]
  by_cases last : b.exponent = 971
  · have mantissa : ((b.mantissa + 4 : Nat) : ℚ) ≤ (2 ^ 53 : Nat) := by exact_mod_cast other last
    rw [last]
    refine mul_le_mul_of_nonneg_right ?_ (two_zpow_pos _).le
    push_cast at mantissa
    linarith
  · have bits : ((b.mantissa + 1 : Nat) : ℚ) ≤ (2 ^ 53 : Nat) := by exact_mod_cast canonical.bits
    have power : (2 : ℚ) ^ b.exponent ≤ 2 ^ (970 : Int) :=
      zpow_le_zpow_right₀ (by norm_num) (by have := canonical.greatest; omega)
    have double : (2 : ℚ) ^ (971 : Int) = 2 * 2 ^ (970 : Int) := two_zpow_succ 970
    have unit := two_zpow_pos b.exponent
    push_cast at bits
    rw [double]
    clear double
    generalize (2 : ℚ) ^ (970 : Int) = u at *
    generalize (2 : ℚ) ^ b.exponent = v at *
    have above : 0 < u := unit.trans_le power
    calc (b.mantissa + 1 / 2) * v ≤ 2 ^ 53 * u := mul_le_mul (by linarith) power unit.le (by positivity)
      _ ≤ (2 ^ 53 - 7 / 2) * (2 * u) := by linarith

/-- What a finite number is written as stands for a number. -/
theorem stored_isSome {b : Binary64} (canonical : b.Canonical) : (toDouble? (Layout.stored.numeral b)).isSome = true := by
  have plain := Shortest.ofBinary64_plain Layout.stored.tie canonical
  by_cases top : b.exponent = 971 ∧ 2 ^ 53 ≤ b.mantissa + 3
  · -- the three greatest doubles leave no room for the errors of reading, but read again nevertheless
    have three : ∀ negative, ∀ less ∈ [1, 2, 3],
        (toDouble? (Layout.stored.numeral ⟨negative, 2 ^ 53 - less, 971, false⟩)).isSome = true := by decide +kernel
    obtain ⟨negative, mantissa, exponent, isPowerOfTwo⟩ := b
    obtain ⟨rfl, great⟩ := top
    have bits := canonical.bits
    have power : isPowerOfTwo = false := by
      by_contra edge
      have same := (canonical.power.mp (by simpa using edge)).1
      simp only at same great
      omega
    have same : mantissa = 2 ^ 53 - (2 ^ 53 - mantissa) := by
      simp only at bits
      omega
    rw [power, same]
    refine three negative _ ?_
    simp only [List.mem_cons, List.not_mem_nil, or_false]
    simp only at bits great
    omega
  · refine toDouble?_isSome (stored_whole plain) ?_
    rw [Layout.numeral, arrange_value]
    by_cases positive : 0 < b.mantissa
    · exact (Shortest.ofBinary64_rounds _ canonical positive).le_high.trans
        (high_le_reachable canonical (fun last => by by_contra other; exact top ⟨last, by omega⟩))
    · rw [Shortest.ofBinary64, if_pos (by omega), Shortest.value, Nat.cast_zero, zero_mul, reachable]
      exact mul_nonneg (by norm_num) (two_zpow_pos _).le

/-- The number that a number reads again as, once it has been written to an artifact. -/
def reread? (x : Float) : Option Float := (Binary64.parts? x).bind fun b => toDouble? (Layout.stored.numeral b)

/-- A number reads again as some number when it is finite. -/
theorem reread?_isSome (x : Float) : (reread? x).isSome = x.isFinite := by
  rw [isFinite_eq, reread?]
  cases parts : Binary64.parts? x with
  | none => rfl
  | some b => exact stored_isSome (parts?_canonical parts)

/-! ## Numbers that read again as themselves -/

private theorem powerOfTen_exact {e : Nat} (few : e ≤ 22) :
    ∃ b, Binary64.parts? (Json.powerOfTen e) = some b ∧ b.negative = false ∧ 2 ^ 52 ≤ b.mantissa ∧ b.value = 10 ^ e := by
  obtain ⟨b, parts, sign, nearest⟩ := Json.powerOfTen_parts (e := e) (by omega)
  have mantissa : 5 ^ e < 2 ^ 53 := lt_of_le_of_lt (Nat.pow_le_pow_right (by decide) few) (by decide)
  refine ⟨b, parts, sign, nearest.1, nearest.value_eq mantissa (show (-1074 : Int) ≤ e by omega) ?_⟩
  rw [zpow_natCast, Nat.cast_pow, ← mul_pow]
  norm_num

/-- Few digits, scaled by a power of ten that is a double, give the double nearest to the decimal. -/
theorem scale_nearest {digits : Nat} {e : Int} (positive : 0 < digits) (small : digits < 2 ^ 53) (least : -22 ≤ e)
    (most : e ≤ 22) : ∃ y c, Json.scale (nearest digits 0) e = some y ∧ Binary64.parts? y = some c ∧ c.negative = false ∧
      NearestTo (digits * 10 ^ e) c := by
  have one : (1 : ℚ) ≤ digits := by exact_mod_cast positive
  have word : digits < 2 ^ 64 := small.trans (by decide)
  have great : 2 ^ 53 * 10 ^ 22 ≤ 10 ^ 38 := by norm_num
  have bound := cast_lt_tooGreat great (by decide)
  have few : (digits : ℚ) ≤ (2 ^ 53 : Nat) := by exact_mod_cast small.le
  have below : ∀ f : Int, f ≤ 22 → (digits * 10 ^ f : ℚ) < tooGreat := by
    intro f short
    have power : (10 : ℚ) ^ f ≤ 10 ^ (22 : Int) := zpow_le_zpow_right₀ (by norm_num) short
    refine lt_of_le_of_lt (mul_le_mul few power (by positivity) (by positivity)) ?_
    rw [Nat.cast_mul, Nat.cast_pow 10 22] at bound
    exact bound
  obtain ⟨a, left, plus, nearest⟩ := parts?_nearest positive word (Nat.zero_le 308) (by simpa using below 0 (by decide))
  have digitsValue : a.value = digits := by
    rw [nearest.value_eq small (show (-1074 : Int) ≤ 0 by decide) (by simp)]
    simp
  by_cases negative : e < 0
  · obtain ⟨b, right, plus', full, power⟩ := powerOfTen_exact (e := (-e).toNat) (by omega)
    have value : a.value / b.value = digits * 10 ^ e := by
      rw [digitsValue, power, div_eq_mul_inv, ← zpow_natCast, ← zpow_neg]
      congr 2
      omega
    have normal : (2 : ℚ) ^ (-1000 : Int) ≤ a.value / b.value := by
      rw [value]
      have tiny : (2 : ℚ) ^ (-1000 : Int) ≤ 2 ^ (-88 : Int) := zpow_le_zpow_right₀ (by norm_num) (by norm_num)
      have ten : (2 : ℚ) ^ (-88 : Int) ≤ 10 ^ (-22 : Int) := by norm_num
      have power : (10 : ℚ) ^ (-22 : Int) ≤ 10 ^ e := zpow_le_zpow_right₀ (by norm_num) least
      have whole : (10 : ℚ) ^ e ≤ digits * 10 ^ e := le_mul_of_one_le_left (by positivity) one
      exact tiny.trans (ten.trans (power.trans whole))
    obtain ⟨c, quotient, sign, rounded⟩ := parts?_div left right nearest.1 full normal (value ▸ below e most)
    rw [value] at rounded
    exact ⟨_, c, Json.scale_of_neg (by omega) negative, quotient, sign plus plus', rounded⟩
  · obtain ⟨b, right, plus', full, power⟩ := powerOfTen_exact (e := e.toNat) (by omega)
    have value : a.value * b.value = digits * 10 ^ e := by
      rw [digitsValue, power, ← zpow_natCast]
      congr 2
      omega
    have normal : (2 : ℚ) ^ (-1022 : Int) ≤ a.value * b.value := by
      rw [value]
      have ten : (1 : ℚ) ≤ 10 ^ e := one_le_zpow₀ (by norm_num) (not_lt.mp negative)
      have tiny : (2 : ℚ) ^ (-1022 : Int) ≤ 1 := zpow_le_one_of_nonpos₀ (by norm_num) (by norm_num)
      exact tiny.trans (one_le_mul_of_one_le_of_one_le one ten)
    obtain ⟨c, product, sign, rounded⟩ := parts?_mul left right nearest.1 (by omega) normal (value ▸ below e most)
    rw [value] at rounded
    refine ⟨_, c, ?_, product, sign plus plus', rounded⟩
    rw [Json.scale_of_nonneg (not_lt.mp negative) (by omega)]
    have finite : (Decimal.nearest digits 0 * Json.powerOfTen e.toNat).isInf = false := isInf_of_parts product
    rw [finite]
    rfl

private theorem parts?_neg {y : Float} {c : Binary64} (parts : Binary64.parts? y = some c) (positive : 0 < c.mantissa) :
    Binary64.parts? (-y) = some { c with negative := !c.negative } := by
  obtain ⟨s, unpacked, sign⟩ := unpack_of_parts parts positive
  have canonical := parts?_canonical parts
  show Binary64.parts? (Float.ofModel (Float.Model.pack (Float.Model.UnpackedFloat.neg y.toModel.unpack))) = _
  rw [unpacked]
  have packed := parts?_pack_finite (-s) positive canonical.bits canonical.least canonical.greatest canonical.normal
  have power : (c.mantissa == 2 ^ 52 && decide (-1074 < c.exponent)) = c.isPowerOfTwo := by
    rw [Bool.eq_iff_iff, canonical.power, Bool.and_eq_true, beq_iff_eq, decide_eq_true_iff]
  have opposite : (-s == .negative) = !c.negative := by
    rw [← sign]
    cases s <;> rfl
  rw [power, opposite] at packed
  exact packed

@[simp] theorem arrange_negative (layout : Layout) (negative : Bool) (d : Shortest) :
    (layout.arrange negative d).negative = negative := by
  unfold Layout.arrange Layout.pointed
  simp only
  repeat' split
  all_goals rfl

/-- A finite number that is stored with few digits, those after the point included, and few places. -/
def ShortlyStored (x : Float) : Prop :=
  ∃ b, Binary64.parts? x = some b ∧ (Layout.stored.numeral b).digits < 2 ^ 53 ∧
    -22 ≤ (Layout.stored.numeral b).places ∧ (Layout.stored.numeral b).places ≤ 22

/-- A number that is stored with few digits and places reads again as itself. -/
theorem reread?_same {x : Float} (short : ShortlyStored x) : reread? x = some x := by
  obtain ⟨b, parts, few, least, most⟩ := short
  have canonical := parts?_canonical parts
  have again : reread? x = toDouble? (Layout.stored.numeral b) := by
    rw [reread?, parts]
    rfl
  by_cases positive : 0 < b.mantissa
  · have rounds := Shortest.ofBinary64_rounds Layout.stored.tie canonical positive
    rw [← arrange_value Layout.stored b.negative, ← Layout.numeral] at rounds
    have sign : (Layout.stored.numeral b).negative = b.negative := arrange_negative _ _ _
    generalize Layout.stored.numeral b = n at *
    have some : 0 < n.digits := by
      by_contra none
      have zero : n.digits = 0 := by omega
      have least := rounds.low_le
      rw [Numeral.value, zero, Nat.cast_zero, zero_mul, Binary64.low_eq] at least
      have one : (1 : ℚ) ≤ b.mantissa := by exact_mod_cast positive
      refine absurd least (not_le.mpr (mul_pos ?_ (two_zpow_pos _)))
      split <;> linarith
    obtain ⟨y, c, scaled, read, plus, -, M, t, grid, near, value⟩ := scale_nearest some few least most
    have fits := parts?_canonical read
    have same := canonical.ext fits positive ((rounds.value_eq canonical grid near).trans value.symm)
    have power : c.isPowerOfTwo = b.isPowerOfTwo := by
      rw [Bool.eq_iff_iff, fits.power, canonical.power, same.1, same.2]
    rw [again, toDouble?_all (few.le.trans (by decide)), scaled, Option.map_some, sign]
    congr 1
    refine ext_parts ?_ parts
    have whole : (⟨b.negative, c.mantissa, c.exponent, c.isPowerOfTwo⟩ : Binary64) = b := by
      rw [← same.1, ← same.2, power]
    cases negative : b.negative with
    | false =>
      rw [negative] at whole
      rw [if_neg Bool.false_ne_true, read, ← whole, ← plus]
    | true =>
      rw [negative] at whole
      rw [if_pos rfl, parts?_neg read (same.1 ▸ positive), plus, ← whole]
      rfl
  · have zeros : ∀ negative, (toDouble? (Layout.stored.numeral ⟨negative, 0, -1074, false⟩)).bind Binary64.parts? =
        some ⟨negative, 0, -1074, false⟩ := by decide +kernel
    obtain ⟨negative, mantissa, exponent, isPowerOfTwo⟩ := b
    have zero : mantissa = 0 := by simp only at positive; omega
    have floor : exponent = -1074 := canonical.normal.resolve_right (by simp only; omega)
    have plain : isPowerOfTwo = false := by
      by_contra edge
      have full := (canonical.power.mp (by simpa using edge)).1
      simp only at full
      omega
    rw [zero, floor, plain] at parts again
    obtain ⟨y, read, same⟩ := Option.bind_eq_some_iff.mp (zeros negative)
    rw [again, read, ext_parts same parts]

end Scriptorium.Decimal

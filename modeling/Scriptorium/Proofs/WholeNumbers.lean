import Mathlib
import Scriptorium.Proofs.Rereading
import Scriptorium.Value

/-!
# Writing whole numbers

A natural number below `2 ^ 53` is a double, and that is written with the digits of the number (`numberText_nearest`): the search
for few digits stops at the latest at the grid of the naturals, and of these no other rounds to the double.
-/
namespace Scriptorium.Decimal

private theorem ofDigits_concat (digits : List Char) (c : Char) : ofDigits
    (digits ++ [c]) = ofDigits digits * 10 + digitValue c := by
  rw [ofDigits_append]
  show _ * 10 ^ 1 + (10 * 0 + digitValue c) = _
  omega

private theorem digitChar_digitValue {c : Char} (digit : c.isDigit = true) : digitValue c < 10 ∧ Nat.digitChar
    (digitValue c) = c := by
  simp only [Char.isDigit, Bool.and_eq_true, decide_eq_true_eq, UInt32.le_iff_toNat_le] at digit
  have codes : 48 ≤ c.toNat ∧ c.toNat ≤ 57 := digit
  obtain ⟨d, small, same⟩ : ∃ d < 10, c.toNat = 48 + d := ⟨c.toNat - 48, by omega, by omega⟩
  have value : digitValue c = d := by
    show c.toNat - 48 = d
    omega
  refine ⟨value ▸ small, ?_⟩
  rw [value]
  apply Char.toNat_inj.mp
  rw [same]
  interval_cases d <;> rfl

private theorem ofDigits_pos {c : Char} {tail : List Char} (all : ∀ d ∈ c :: tail, d.isDigit = true) (other : c ≠ '0') :
    0 < ofDigits (c :: tail) := by
  have first := digitChar_digitValue (all c List.mem_cons_self)
  have positive : 0 < digitValue c := by
    by_contra zero
    have none : digitValue c = 0 := by omega
    rw [none] at first
    exact other first.2.symm
  have split : ofDigits (c :: tail) = ofDigits [c] * 10 ^ tail.length + ofDigits tail := ofDigits_append [c] tail
  have single : ofDigits [c] = digitValue c := by
    show 10 * 0 + digitValue c = _
    omega
  rw [split, single]
  positivity

/-- Digits without a zero in front are those of their number. -/
theorem toDigits_ofDigits {digits : List Char} (all : ∀ c ∈ digits, c.isDigit = true) (whole : Numeral.isWhole digits = true) :
    Nat.toDigits 10 (ofDigits digits) = digits := by
  induction digits using List.reverseRecOn with
  | nil => cases whole
  | append_singleton digits c ih =>
    obtain ⟨small, same⟩ := digitChar_digitValue (all c (by simp))
    have before : ∀ d ∈ digits, d.isDigit = true := fun d among => all d (List.mem_append_left _ among)
    rw [ofDigits_concat, Nat.toDigits_eq_if (by decide)]
    rcases digits with _ | ⟨first, tail⟩
    · rw [show ofDigits [] = 0 from rfl, Nat.zero_mul, Nat.zero_add, if_pos small, same, List.nil_append]
    · have other : first ≠ '0' := by
        rcases tail with _ | ⟨next, tail⟩
        all_goals simpa [Numeral.isWhole] using whole
      have positive := ofDigits_pos before other
      rw [if_neg (by omega), show (ofDigits (first :: tail) * 10 + digitValue c) / 10 = ofDigits (first :: tail) by omega,
        show (ofDigits (first :: tail) * 10 + digitValue c) % 10 = digitValue c by omega, same, ih before (isWhole_cons other)]

namespace Shortest

variable {tie : Tie} {b : Binary64}

private theorem strip_exponent (fuel : Nat) (d : Shortest) : d.exponent ≤ (strip fuel d).exponent := by
  induction fuel generalizing d with
  | zero => exact le_rfl
  | succ fuel ih =>
    rw [strip]
    split
    · exact (show d.exponent ≤ d.exponent + 1 by omega).trans (ih _)
    · exact le_rfl

/-- The search goes from coarse grids to fine ones, and stops at the latest at one that it hits. -/
theorem search_exponent {finest : Int} {steps hit : Nat} (below : hit < steps)
    (found : (onGrid? tie b (finest + hit)).isSome = true) : finest + hit ≤ (search tie b finest steps).exponent := by
  induction steps with
  | zero => omega
  | succ steps ih =>
    rw [search]
    cases here : onGrid? tie b (finest + steps) with
    | some digits =>
      have upward := strip_exponent 20 ⟨digits, finest + steps⟩
      simp only at upward ⊢
      omega
    | none =>
      have other : hit ≠ steps := by
        rintro rfl
        rw [here] at found
        cases found
      exact ih (by omega)

private theorem value_rounds (b : Binary64) : b.Rounds b.value := by
  have unit : (0 : ℚ) < 2 ^ (b.exponent - 2) := by positivity
  refine Binary64.rounds_of_lt ?_ ?_
  · rw [Binary64.low, Binary64.value_eq]
    refine mul_lt_mul_of_pos_right ?_ unit
    split <;> linarith
  · rw [Binary64.high, Binary64.value_eq]
    refine mul_lt_mul_of_pos_right ?_ unit
    linarith

/-- The grid of the naturals is hit by a natural number. -/
theorem onGrid?_natural (positive : 0 < b.mantissa) {n : Nat} (same : b.value = n) : (onGrid? tie b 0).isSome = true := by
  by_contra missed
  rw [Bool.not_eq_true, Option.isSome_eq_false_iff, Option.isNone_iff_eq_none] at missed
  obtain ⟨digits, floor, ceiling, below, -⟩ := onGrid?_none_neighbours positive missed
  rw [zpow_zero, mul_one] at floor below
  rw [zpow_zero, mul_one] at ceiling
  rw [same, Nat.cast_le] at floor
  rw [same, Nat.cast_lt] at ceiling
  have digitsSame : digits = n := by omega
  rw [digitsSame, ← same] at below
  exact below (value_rounds b)

section
variable {n : Nat} (same : b.value = n)
include same

/-- A double with all its bits that is a natural number below `2 ^ 53` has no bit left of the point's. -/
theorem exponent_nonpos (full : 2 ^ 52 ≤ b.mantissa) (small : n < 2 ^ 53) : b.exponent ≤ 0 := by
  by_contra high
  have step : (2 : ℚ) ^ (1 : Int) ≤ 2 ^ b.exponent := zpow_le_zpow_right₀ (by norm_num) (by omega)
  have bits : (2 ^ 52 : ℚ) ≤ b.mantissa := by exact_mod_cast full
  have great : (2 ^ 52 : ℚ) * 2 ^ (1 : Int) ≤ b.value := mul_le_mul bits step (by norm_num) (by linarith)
  have less : (n : ℚ) < 2 ^ 53 := by exact_mod_cast small
  rw [same] at great
  norm_num at great less
  linarith

private theorem one_le_magnitude (some : 0 < n) : 1 ≤ (Ratio.scaled b.mantissa b.exponent).magnitude := by
  obtain ⟨ratio, denominator, -⟩ := scaled_value b.mantissa b.exponent
  rw [show (b.mantissa : ℚ) * 2 ^ b.exponent = n from same] at ratio
  generalize Ratio.scaled b.mantissa b.exponent = r at *
  have cast : (0 : ℚ) < r.denominator := by exact_mod_cast denominator
  have one : (1 : ℚ) ≤ n := by exact_mod_cast some
  have great : r.denominator ≤ r.numerator := by
    rw [div_eq_iff cast.ne'] at ratio
    have whole : (r.denominator : ℚ) ≤ r.numerator := by
      rw [ratio]
      nlinarith
    exact_mod_cast whole
  rw [Ratio.magnitude, if_pos great]
  have long : 0 < width (r.numerator / r.denominator) := Nat.length_toDigits_pos
  omega

private theorem magnitude_le_sixteen (positive : 0 < b.mantissa) (small : n < 2 ^ 53) :
    (Ratio.scaled b.mantissa b.exponent).magnitude ≤ 16 := by
  by_contra great
  have above : (10 : ℚ) ^ (16 : Int) ≤ n :=
    (zpow_le_zpow_right₀ (by norm_num) (by omega)).trans ((magnitude_le positive b.exponent).trans_eq same)
  have less : (n : ℚ) < 2 ^ 53 := by exact_mod_cast small
  norm_num at above less
  linarith

/-- The shortest decimal of a natural number below `2 ^ 53` has no digit after the point. -/
theorem ofBinary64_exponent (positive : 0 < b.mantissa) (some : 0 < n) (small : n < 2 ^ 53) :
    0 ≤ (ofBinary64 tie b).exponent := by
  have least := one_le_magnitude same some
  have most := magnitude_le_sixteen same positive small
  rw [ofBinary64, if_neg positive.ne']
  generalize (Ratio.scaled b.mantissa b.exponent).magnitude = magnitude at *
  obtain ⟨hit, reached⟩ : ∃ hit : Nat, magnitude - 17 + hit = 0 := ⟨(17 - magnitude).toNat, by omega⟩
  have found : (onGrid? tie b (magnitude - 17 + hit)).isSome = true := by
    rw [reached]
    exact onGrid?_natural positive same
  have near : hit < 17 := by omega
  have upward := search_exponent near found
  rwa [reached] at upward

/-- Of the natural numbers, only the double itself rounds to it. -/
theorem natural_eq_of_rounds (low : b.exponent ≤ 0) {m : Nat} (rounds : b.Rounds m) : m = n := by
  have unit : (2 : ℚ) ^ (b.exponent - 2) ≤ 1 / 4 := by
    have step : (2 : ℚ) ^ (b.exponent - 2) ≤ 2 ^ (-2 : Int) := zpow_le_zpow_right₀ (by norm_num) (by omega)
    norm_num at step
    exact step
  have floor : (0 : ℚ) < 2 ^ (b.exponent - 2) := by positivity
  have below := rounds.low_le
  have above := rounds.le_high
  have low_eq : b.low = n - (if b.isPowerOfTwo then 1 else 2) * 2 ^ (b.exponent - 2) := by
    rw [← same, Binary64.low, Binary64.value_eq]
    ring
  have high_eq : b.high = n + 2 * 2 ^ (b.exponent - 2) := by
    rw [← same, Binary64.high, Binary64.value_eq]
    ring
  have width : (if b.isPowerOfTwo then 1 else 2) * (2 : ℚ) ^ (b.exponent - 2) ≤ 1 / 2 := by
    split <;> linarith
  have lower : (n : ℚ) < (m + 1 : Nat) := by
    push_cast
    linarith
  have upper : (m : ℚ) < (n + 1 : Nat) := by
    push_cast
    linarith
  rw [Nat.cast_lt] at lower upper
  omega

/-- The shortest decimal of a natural number below `2 ^ 53` is that number. -/
theorem ofBinary64_natural (canonical : b.Canonical) (full : 2 ^ 52 ≤ b.mantissa) (some : 0 < n) (small : n < 2 ^ 53) :
    ∃ k : Nat, (ofBinary64 tie b).exponent = k ∧ (ofBinary64 tie b).digits * 10 ^ k = n := by
  have positive : 0 < b.mantissa := by omega
  have whole : 0 ≤ (ofBinary64 tie b).exponent := ofBinary64_exponent same positive some small
  obtain ⟨k, power⟩ := Int.eq_ofNat_of_zero_le whole
  refine ⟨k, power, natural_eq_of_rounds same (exponent_nonpos same full small) ?_⟩
  have rounds := ofBinary64_rounds tie canonical positive
  rw [value, power] at rounds
  push_cast
  exact rounds

end

end Shortest

private theorem beq_zero_of_parts {x : Float} {b : Binary64} (parts : Binary64.parts? x = some b) (positive : 0 < b.mantissa) :
    (x == 0.0) = false := by
  have zeroParts : Binary64.parts? 0.0 = some ⟨false, 0, -1074, false⟩ := by decide +kernel
  obtain ⟨s, unpacked, -⟩ := unpack_of_parts parts positive
  obtain ⟨s', zero, -⟩ := unpack_of_zero zeroParts rfl
  show x.toModel.unpack.beq (0.0 : Float).toModel.unpack = false
  rw [unpacked, zero]
  cases s <;> rfl

/-- A decimal without a fraction is written as its number. -/
theorem plain_arrange {d : Shortest} {k : Nat} (positive : 0 < d.digits) (power : d.exponent = k) :
    (Layout.plain.arrange false d).chars = Nat.toDigits 10 (d.digits * 10 ^ k) := by
  have all : ∀ c ∈ Nat.toDigits 10 d.digits ++ List.replicate k '0', c.isDigit = true := by
    intro c among
    rcases List.mem_append.mp among with digit | zero
    · exact isDigit_toDigits c digit
    · rw [List.eq_of_mem_replicate zero]
      rfl
  have whole : Numeral.isWhole (Nat.toDigits 10 d.digits ++ List.replicate k '0') = true := by
    obtain ⟨c, tail, same, other⟩ := toDigits_begins positive.ne'
    rw [same]
    exact isWhole_cons other
  have number : ofDigits (Nat.toDigits 10 d.digits ++ List.replicate k '0') = d.digits * 10 ^ k := by
    rw [ofDigits_append, ofDigits_toDigits, ofDigits_zeros, List.length_replicate, Nat.add_zero]
  have long : 0 < (Nat.toDigits 10 d.digits).length := Nat.length_toDigits_pos
  rw [← number, toDigits_ofDigits all whole]
  simp only [Layout.arrange, Layout.plain, Layout.pointed, power]
  rw [if_neg (by omega), if_pos (by omega)]
  have zeros : ((Nat.toDigits 10 d.digits).length + (k : Int)).toNat - (Nat.toDigits 10 d.digits).length = k := by omega
  simp [Numeral.chars, zeros]

/-- Digits of a number below `2 ^ 53`, without a zero in front, are read as that number and written with the same digits. -/
theorem numberText_ofParts {digits : List Char} (all : ∀ c ∈ digits, c.isDigit = true) (whole : Numeral.isWhole digits = true)
    (small : ofDigits digits < 2 ^ 53) : Value.numberText (ofParts digits []) = String.ofList digits := by
  have digitsSame := toDigits_ofDigits all whole
  have read : ofParts digits [] = nearest (ofDigits digits) 0 := by
    rw [ofParts, List.append_nil]
    rfl
  rw [read]
  by_cases zero : ofDigits digits = 0
  · rw [zero] at digitsSame ⊢
    rw [← digitsSame, Value.numberText, if_pos Json.nearest_zero.2]
    rfl
  have positive : 0 < ofDigits digits := Nat.pos_of_ne_zero zero
  generalize ofDigits digits = n at *
  have bounded : (n * 10 ^ 0 : ℚ) < tooGreat := by
    have great : n ≤ 10 ^ 16 := by omega
    rw [pow_zero, mul_one]
    exact cast_lt_tooGreat great (by decide)
  obtain ⟨b, parts, sign, near⟩ := parts?_nearest positive (small.trans (by decide)) (Nat.zero_le 308) bounded
  rw [pow_zero, mul_one] at near
  rw [Nat.cast_zero] at parts
  have value : b.value = n := near.value_eq small (show (-1074 : Int) ≤ 0 by decide) (by simp)
  have full := near.1
  obtain ⟨k, power, same⟩ : ∃ k : Nat, (Shortest.ofBinary64 Layout.plain.tie b).exponent = k ∧
      (Shortest.ofBinary64 Layout.plain.tie b).digits * 10 ^ k = n :=
    Shortest.ofBinary64_natural value (parts?_canonical parts) full positive small
  have some : 0 < (Shortest.ofBinary64 Layout.plain.tie b).digits := by
    by_contra none
    rw [Nat.eq_zero_of_not_pos none, Nat.zero_mul] at same
    omega
  have arranged := plain_arrange some power
  rw [same, digitsSame] at arranged
  rw [Value.numberText, beq_zero_of_parts parts (by omega), if_neg Bool.false_ne_true, Layout.write, parts]
  simp only [Layout.numeral, sign, arranged]

end Scriptorium.Decimal

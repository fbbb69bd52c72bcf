import Scriptorium.Decimal.Binary64
import Scriptorium.Decimal.Numeral
import Scriptorium.Proofs.Rounding
import Scriptorium.Proofs.ShortestDecimals

/-!
# Doubles

The parts of a double are those that the model of double arithmetic takes it apart into (`parts?_eq`), and they
determine it (`ext_parts`).
-/
namespace Scriptorium.Decimal

open Float.Model Float.Model.UnpackedFloat

section
variable (b : BitVec Format.binary64.numBits)

private theorem toNat_unpackExponent : (unpackExponent b).toNat = b.toNat >>> 52 % 2048 := by
  unfold unpackExponent
  rw [BitVec.toNat_cast, BitVec.extractLsb_toNat]
  rfl

private theorem toNat_unpackMantissa : (unpackMantissa b).toNat = b.toNat % (1 <<< 52) := by
  unfold unpackMantissa
  rw [BitVec.toNat_cast, BitVec.extractLsb_toNat, Nat.shiftRight_zero]
  rfl

private theorem toNat_unpackSign : (unpackSign b).toNat = b.toNat >>> 63 := by
  unfold unpackSign
  rw [BitVec.toNat_cast, BitVec.extractLsb_toNat]
  show b.toNat >>> 63 % 2 ^ 1 = b.toNat >>> 63
  have bound : b.toNat < 2 ^ 64 := b.isLt
  rw [Nat.shiftRight_eq_div_pow]
  omega

private theorem toNat_one_append (v : BitVec 52) : (1#1 ++ v).toNat = 1 <<< 52 + v.toNat := by
  rw [BitVec.toNat_append, ← Nat.shiftLeft_add_eq_or_of_lt v.isLt]
  rfl

end

/-- The parts of a double as the model takes it apart. -/
def partsOf : UnpackedFloat → Option Binary64
  | .finite s m q _ => some ⟨s == .negative, m, q, m == 2 ^ 52 && -1074 < q⟩
  | .zero s => some ⟨s == .negative, 0, -1074, false⟩
  | .infinity _ | .notANumber => none

private theorem isNegative_eq (x : Float) :
    Binary64.isNegative x = (Sign.ofBitVec (@unpackSign Format.binary64 x.toBits.toBitVec) == .negative) := by
  have bound := x.toBits.toNat_lt
  have sign := toNat_unpackSign x.toBits.toBitVec
  have bit : x.toBits.toBitVec.toNat = x.toBits.toNat := rfl
  rw [bit, Nat.shiftRight_eq_div_pow] at sign
  have shifted : (x.toBits >>> 63).toNat = x.toBits.toNat / 2 ^ 63 := by
    rw [UInt64.toNat_shiftRight, Nat.shiftRight_eq_div_pow]
    rfl
  unfold Binary64.isNegative Sign.ofBitVec
  by_cases zero : x.toBits.toNat / 2 ^ 63 = 0
  · have none : @unpackSign Format.binary64 x.toBits.toBitVec = 0#1 := BitVec.eq_of_toNat_eq (by rw [sign, zero]; rfl)
    have other : x.toBits >>> 63 ≠ 1 := by
      intro same
      rw [same, zero] at shifted
      cases shifted
    rw [if_pos none, beq_eq_false_iff_ne.mpr other]
    rfl
  · have one : x.toBits.toNat / 2 ^ 63 = 1 := by omega
    have some : @unpackSign Format.binary64 x.toBits.toBitVec ≠ 0#1 := by
      intro same
      rw [same, one] at sign
      cases sign
    have same : x.toBits >>> 63 = 1 := UInt64.toNat_inj.mp (by rw [shifted, one]; rfl)
    rw [if_neg some, same]
    rfl

/-- The parts of bits that the model takes apart. -/
theorem partsOf_unpack (b : BitVec Format.binary64.numBits) :
    partsOf (UnpackedFloat.unpack Format.binary64 b) =
      let negative := Sign.ofBitVec (unpackSign b) == .negative
      let field := (unpackExponent b).toNat
      let fraction := (unpackMantissa b).toNat
      if field = 2047 then none
      else if field = 0 then some ⟨negative, fraction, -1074, false⟩
      else some ⟨negative, 1 <<< 52 + fraction, (field : Int) - 1075, fraction = 0 && 1 < field⟩ := by
  have small : (unpackMantissa b).toNat < 2 ^ 52 := (unpackMantissa b).isLt
  simp only
  unfold UnpackedFloat.unpack
  simp only
  by_cases special : (unpackExponent b).toNat = 2047
  · have ones : unpackExponent b = -1#_ := BitVec.eq_of_toNat_eq special
    rw [if_pos special, if_pos ones]
    split <;> rfl
  · have ordinary : ¬ unpackExponent b = -1#_ := fun ones => special (by rw [ones]; rfl)
    rw [if_neg special, if_neg ordinary]
    by_cases subnormal : (unpackExponent b).toNat = 0
    · have zeros : unpackExponent b = 0#_ := BitVec.eq_of_toNat_eq subnormal
      rw [if_pos subnormal, if_pos zeros]
      by_cases none : unpackMantissa b = 0#_
      · rw [dif_pos none, none]
        rfl
      · rw [dif_neg none, partsOf, subnormal]
        have short : ((unpackMantissa b).toNat == 2 ^ 52) = false := beq_eq_false_iff_ne.mpr (by omega)
        rw [short]
        rfl
    · have normal : ¬ unpackExponent b = 0#_ := fun zeros => subnormal (by rw [zeros]; rfl)
      have exponent : ((unpackExponent b).toNat : Int) -
          (Format.binary64.exponentBias + Format.binary64.mantissaBitsWithoutImplicit : Int) =
          (unpackExponent b).toNat - 1075 := rfl
      have whole : (1#1 ++ unpackMantissa b).toNat = 1 <<< 52 + (unpackMantissa b).toNat := toNat_one_append _
      rw [if_neg subnormal, if_neg normal, partsOf, whole, exponent]
      have power : (1 <<< 52 + (unpackMantissa b).toNat == 2 ^ 52) = decide ((unpackMantissa b).toNat = 0) := by
        by_cases zero : (unpackMantissa b).toNat = 0 <;> simp [zero]
      have above : decide ((-1074 : Int) < (unpackExponent b).toNat - 1075) = decide (1 < (unpackExponent b).toNat) := by
        rw [decide_eq_decide]
        omega
      rw [power, above]

theorem parts?_eq (x : Float) : Binary64.parts? x = partsOf x.toModel.unpack := by
  have field := toNat_unpackExponent x.toBits.toBitVec
  have fraction := toNat_unpackMantissa x.toBits.toBitVec
  show _ = partsOf (UnpackedFloat.unpack Format.binary64 x.toBits.toBitVec)
  rw [partsOf_unpack, ← isNegative_eq, field, fraction]
  rfl

theorem parts?_canonical {x : Float} {b : Binary64} (parts : Binary64.parts? x = some b) : b.Canonical := by
  have fraction : x.toBits.toNat % (1 <<< 52) < 2 ^ 52 := Nat.mod_lt _ (by decide)
  have field : x.toBits.toNat >>> 52 % 2048 < 2048 := Nat.mod_lt _ (by decide)
  have bit : 1 <<< 52 = 2 ^ 52 := rfl
  unfold Binary64.parts? at parts
  simp only at parts
  generalize x.toBits.toNat % (1 <<< 52) = fraction at *
  generalize x.toBits.toNat >>> 52 % 2048 = field at *
  split at parts
  · cases parts
  · split at parts
    · cases parts
      exact ⟨by simp only; omega, by simp, by simp, .inl rfl, by simp⟩
    · cases parts
      refine ⟨by simp only; omega, by simp only; omega, by simp only; omega, .inr (by simp only; omega), ?_⟩
      simp only [Bool.and_eq_true, decide_eq_true_iff]
      omega

/-- A double is determined by its parts. -/
theorem ext_parts {x y : Float} {b : Binary64} (left : Binary64.parts? x = some b) (right : Binary64.parts? y = some b) :
    x = y := by
  have bits : ∀ {z : Float}, Binary64.parts? z = some b → z.toBits.toNat =
      (if b.negative then 2 ^ 63 else 0) + (if b.mantissa < 2 ^ 52 then 0 else (b.exponent + 1075).toNat) * 2 ^ 52 +
        b.mantissa % 2 ^ 52 := by
    intro z parts
    have small := z.toBits.toNat_lt
    have sign : Binary64.isNegative z = true ↔ z.toBits.toNat / 2 ^ 63 = 1 := by
      rw [Binary64.isNegative, beq_iff_eq, ← UInt64.toNat_inj, UInt64.toNat_shiftRight, Nat.shiftRight_eq_div_pow]
      rfl
    unfold Binary64.parts? at parts
    simp only [Nat.shiftRight_eq_div_pow, Nat.one_shiftLeft] at parts
    split at parts
    · cases parts
    · split at parts
      · cases parts
        by_cases negative : Binary64.isNegative z = true
        · have high := sign.mp negative
          simp only [negative, if_true]
          split <;> omega
        · have low : ¬ z.toBits.toNat / 2 ^ 63 = 1 := fun high => negative (sign.mpr high)
          simp only [negative, Bool.false_eq_true, if_false]
          split <;> omega
      · cases parts
        by_cases negative : Binary64.isNegative z = true
        · have high := sign.mp negative
          simp only [negative, if_true]
          split <;> omega
        · have low : ¬ z.toBits.toNat / 2 ^ 63 = 1 := fun high => negative (sign.mpr high)
          simp only [negative, Bool.false_eq_true, if_false]
          split <;> omega
  have same : x.toBits = y.toBits := UInt64.toNat_inj.mp ((bits left).trans (bits right).symm)
  obtain ⟨⟨_, _⟩⟩ := x
  obtain ⟨⟨_, _⟩⟩ := y
  cases same
  rfl

/-- A double that is not zero, as the model takes it apart. -/
theorem unpack_of_parts {x : Float} {b : Binary64} (parts : Binary64.parts? x = some b) (positive : 0 < b.mantissa) :
    ∃ s : UnpackedFloat.Sign, x.toModel.unpack = .finite s b.mantissa b.exponent positive ∧ (s == .negative) = b.negative := by
  rw [parts?_eq] at parts
  cases unpacked : x.toModel.unpack with
  | finite s m q h =>
    rw [unpacked] at parts
    cases parts
    exact ⟨s, rfl, rfl⟩
  | zero s =>
    rw [unpacked] at parts
    cases parts
    cases positive
  | infinity s =>
    rw [unpacked] at parts
    cases parts
  | notANumber =>
    rw [unpacked] at parts
    cases parts

theorem unpack_of_zero {x : Float} {b : Binary64} (parts : Binary64.parts? x = some b) (zero : b.mantissa = 0) :
    ∃ s : UnpackedFloat.Sign, x.toModel.unpack = .zero s ∧ (s == .negative) = b.negative := by
  rw [parts?_eq] at parts
  cases unpacked : x.toModel.unpack with
  | finite s m q h =>
    rw [unpacked] at parts
    cases parts
    exact absurd zero h.ne'
  | zero s =>
    rw [unpacked] at parts
    cases parts
    exact ⟨s, rfl, rfl⟩
  | infinity s =>
    rw [unpacked] at parts
    cases parts
  | notANumber =>
    rw [unpacked] at parts
    cases parts

/-- The doubles with parts are the finite ones. -/
theorem isFinite_eq (x : Float) : x.isFinite = (Binary64.parts? x).isSome := by
  rw [parts?_eq]
  show x.toModel.unpack.isFinite = _
  cases x.toModel.unpack <;> rfl

theorem isInf_of_parts {x : Float} {b : Binary64} (parts : Binary64.parts? x = some b) : x.isInf = false := by
  rw [parts?_eq] at parts
  show x.toModel.unpack.isInf = false
  cases unpacked : x.toModel.unpack with
  | infinity s =>
    rw [unpacked] at parts
    cases parts
  | finite | zero | notANumber => rfl

private theorem unpackSign_packComponents (s : UnpackedFloat.Sign) (exponent : BitVec 11) (mantissa : BitVec 52) :
    Sign.ofBitVec (unpackSign (packComponents Format.binary64 s exponent mantissa)) = s := by
  have sign := toNat_unpackSign (packComponents Format.binary64 s exponent mantissa)
  have bits : (packComponents Format.binary64 s exponent mantissa).toNat =
      (s.toBitVec.toNat * 2 ^ 11 + exponent.toNat) * 2 ^ 52 + mantissa.toNat := by
    unfold packComponents
    rw [BitVec.toNat_append, BitVec.toNat_append, ← Nat.shiftLeft_add_eq_or_of_lt mantissa.isLt,
      ← Nat.shiftLeft_add_eq_or_of_lt exponent.isLt, Nat.shiftLeft_eq, Nat.shiftLeft_eq]
  have low : mantissa.toNat < 2 ^ 52 := mantissa.isLt
  have high : exponent.toNat < 2 ^ 11 := exponent.isLt
  rw [bits, Nat.shiftRight_eq_div_pow] at sign
  cases s with
  | negative =>
    have one : (unpackSign (packComponents Format.binary64 .negative exponent mantissa)).toNat = 1 := by
      have top : UnpackedFloat.Sign.negative.toBitVec.toNat = 1 := rfl
      rw [sign, top]
      omega
    rw [BitVec.eq_of_toNat_eq (y := 1#1) one]
    rfl
  | positive =>
    have zero : (unpackSign (packComponents Format.binary64 .positive exponent mantissa)).toNat = 0 := by
      have top : UnpackedFloat.Sign.positive.toBitVec.toNat = 0 := rfl
      rw [sign, top]
      omega
    rw [BitVec.eq_of_toNat_eq (y := 0#1) zero]
    rfl

private theorem partsOf_unpack_packComponents (s : UnpackedFloat.Sign) (exponent : BitVec 11) (mantissa : BitVec 52) :
    partsOf (UnpackedFloat.unpack Format.binary64 (packComponents Format.binary64 s exponent mantissa)) =
      if exponent.toNat = 2047 then none
      else if exponent.toNat = 0 then some ⟨s == .negative, mantissa.toNat, -1074, false⟩
      else some ⟨s == .negative, 1 <<< 52 + mantissa.toNat, (exponent.toNat : Int) - 1075,
        mantissa.toNat = 0 && 1 < exponent.toNat⟩ := by
  rw [partsOf_unpack, unpackSign_packComponents, unpackExponent_packComponents, unpackMantissa_packComponents]

/-- A double that is packed has the parts that it was packed from. -/
theorem parts?_pack_finite (s : UnpackedFloat.Sign) {m : Nat} {q : Int} (positive : 0 < m) (bits : m < 2 ^ 53)
    (least : -1074 ≤ q) (greatest : q ≤ 971) (normal : q = -1074 ∨ 2 ^ 52 ≤ m) :
    Binary64.parts? (Float.ofModel (Float.Model.pack (.finite s m q positive))) =
      some ⟨s == .negative, m, q, m == 2 ^ 52 && -1074 < q⟩ := by
  rw [parts?_eq]
  show partsOf (UnpackedFloat.unpack Format.binary64 (UnpackedFloat.pack Format.binary64 (.finite s m q positive))) = _
  have biased : q + (Format.binary64.exponentBias : Int) + (Format.binary64.mantissaBitsWithoutImplicit : Int) =
      q + 1075 := by
    show q + 1023 + 52 = q + 1075
    ring
  rw [UnpackedFloat.pack]
  simp only [biased]
  have finite : ¬ 2 ^ Format.binary64.exponentBits ≤ (q + 1075).toNat + 1 := by
    show ¬ 2 ^ 11 ≤ (q + 1075).toNat + 1
    omega
  have field : (BitVec.ofNat 11 (q + 1075).toNat).toNat = (q + 1075).toNat := by
    rw [BitVec.toNat_ofNat]
    omega
  have fraction : (BitVec.ofNat 52 m).toNat = m % 2 ^ 52 := BitVec.toNat_ofNat _ _
  rw [if_neg finite]
  by_cases full : 2 ^ 52 ≤ m
  · have log : m.log2 + 1 = Format.binary64.mantissaBits := by
      rw [(Nat.log2_eq_iff positive.ne').mpr ⟨full, bits⟩]
      rfl
    rw [if_pos log, partsOf_unpack_packComponents, field, fraction, if_neg (by omega), if_neg (by omega)]
    have mantissa : 1 <<< 52 + m % 2 ^ 52 = m := by
      rw [Nat.one_shiftLeft]
      omega
    have exponent : ((q + 1075).toNat : Int) - 1075 = q := by omega
    have power : decide (m % 2 ^ 52 = 0) = (m == 2 ^ 52) := by
      rw [Bool.eq_iff_iff, decide_eq_true_iff, beq_iff_eq]
      omega
    have above : decide (1 < (q + 1075).toNat) = decide (-1074 < q) := by
      rw [decide_eq_decide]
      omega
    rw [mantissa, exponent, power, above]
  · have log : ¬ m.log2 + 1 = Format.binary64.mantissaBits := by
      intro same
      have long : m.log2 = 52 := by
        have digits : Format.binary64.mantissaBits = 53 := rfl
        omega
      exact full (long ▸ Nat.log2_self_le positive.ne')
    have floor : q = -1074 := normal.resolve_right full
    rw [if_neg log, partsOf_unpack_packComponents, fraction, floor]
    have short : (m == 2 ^ 52) = false := beq_eq_false_iff_ne.mpr (by omega)
    have mantissa : m % 2 ^ 52 = m := Nat.mod_eq_of_lt (by omega)
    rw [short, mantissa]
    rfl

theorem parts?_pack_zero (s : UnpackedFloat.Sign) :
    Binary64.parts? (Float.ofModel (Float.Model.pack (.zero s))) = some ⟨s == .negative, 0, -1074, false⟩ := by
  rw [parts?_eq]
  show partsOf (UnpackedFloat.unpack Format.binary64 (packComponents Format.binary64 s 0 0)) = _
  rw [partsOf_unpack_packComponents]
  rfl

/-! ## Arithmetic -/

/-- The bound from which on numbers round to infinity. -/
def tooGreat : ℚ := (2 ^ 53 - 1 / 2) * 2 ^ (971 : Int)

/-- The bound lies between two powers of ten. -/
theorem tooGreat_between : 2 * 10 ^ 308 < (2 ^ 54 - 1) * 2 ^ 971 ∧ 2 ^ 53 * 2 ^ 971 < 10 ^ 309 := by decide +kernel

theorem cast_lt_tooGreat {n e : Nat} (small : n ≤ 10 ^ e) (short : e ≤ 308) : (n : ℚ) < tooGreat := by
  have greatest : 10 ^ e ≤ 10 ^ 308 := by
    gcongr
    decide
  have cast : ((2 * n : Nat) : ℚ) < (((2 ^ 54 - 1) * 2 ^ 971 : Nat) : ℚ) :=
    Nat.cast_lt.mpr (lt_of_le_of_lt (Nat.mul_le_mul_left 2 (small.trans greatest)) tooGreat_between.1)
  rw [Nat.cast_mul, Nat.cast_mul, Nat.cast_pow 2 971, Nat.cast_ofNat] at cast
  have power : (2 : ℚ) ^ (971 : Int) = 2 ^ 971 := rfl
  have mantissa : ((2 ^ 54 - 1 : Nat) : ℚ) = 2 * (2 ^ 53 - 1 / 2) := by norm_num
  rw [mantissa, mul_assoc] at cast
  rw [tooGreat, power]
  exact lt_of_mul_lt_mul_left cast (by norm_num)

/-- A double is the nearest to a number. -/
def NearestTo (r : ℚ) (b : Binary64) : Prop :=
  2 ^ 52 ≤ b.mantissa ∧ ∃ M t, Grid t r ∧ Nearest M t r ∧ b.value = M * 2 ^ t

private theorem carried_parts (s : UnpackedFloat.Sign) {M : Nat} {t : Int} {r : ℚ} (grid : Grid t r) (near : Nearest M t r)
    (normal : 2 ^ (-1022 : Int) ≤ r) (bounded : r < tooGreat) :
    ∃ b, Binary64.parts? (Float.ofModel (Float.Model.pack (carried s M t))) = some b ∧
      b.negative = (s == .negative) ∧ NearestTo r b := by
  have unit := two_zpow_pos t
  have least := grid.1
  have most := grid.nearest_le near
  have above : (2 : ℚ) ^ (t + 52) ≤ r := by
    rcases grid.2.2 with floor | above
    · rw [floor]
      exact normal
    · exact above
  have below : t ≤ 971 := by
    have huge : tooGreat < 2 ^ ((53 : Int) + 971) := by
      rw [zpow_add₀ (by norm_num), tooGreat]
      exact mul_lt_mul_of_pos_right (by norm_num) (two_zpow_pos 971)
    have less := (zpow_lt_zpow_iff_right₀ (by norm_num : (1 : ℚ) < 2)).mp (above.trans_lt (bounded.trans huge))
    omega
  have full : 2 ^ 52 ≤ M := by
    have upper := above.trans near.2.1
    rw [add_comm, zpow_add₀ (by norm_num)] at upper
    have mantissa : (2 : ℚ) ^ (52 : Nat) ≤ M + 1 / 2 := le_of_mul_le_mul_right upper unit
    by_contra other
    have small : ((M + 1 : Nat) : ℚ) ≤ (2 ^ 52 : Nat) := by exact_mod_cast not_le.mp other
    push_cast at small
    linarith
  by_cases carry : M < 2 ^ 53
  · have same : carried s M t = .finite s M t (by omega) := by
      rw [carried, dif_neg (by omega), if_pos carry]
    rw [same]
    exact ⟨_, parts?_pack_finite s _ carry least below (.inr full), rfl, full, M, t, grid, near, rfl⟩
  · have whole : M = 2 ^ 53 := by omega
    subst whole
    have room : t + 1 ≤ 971 := by
      by_contra other
      have last : t = 971 := by omega
      subst last
      have lower := near.1
      unfold tooGreat at bounded
      rw [Nat.cast_pow, Nat.cast_ofNat] at lower
      exact absurd bounded (not_lt.mpr lower)
    refine ⟨_, parts?_pack_finite s (by decide) (by decide) (by omega) room (.inr (le_refl _)), rfl, le_refl _, _, t, grid,
      near, ?_⟩
    show ((2 ^ 52 : Nat) : ℚ) * 2 ^ (t + 1) = (2 ^ 53 : Nat) * 2 ^ t
    rw [two_zpow_succ]
    push_cast
    ring

private theorem log2_mul_of_full {m₁ m₂ : Nat} (full : 2 ^ 52 ≤ m₁) (positive : 0 < m₂) : 52 ≤ (m₁ * m₂).log2 := by
  have product : 2 ^ 52 ≤ m₁ * m₂ := le_trans full (Nat.le_mul_of_pos_right _ positive)
  exact (Nat.le_log2 (by omega)).mpr product

variable {x y : Float} {a b : Binary64}

/-- The product of two doubles is the double nearest to it. -/
theorem parts?_mul (left : Binary64.parts? x = some a) (right : Binary64.parts? y = some b) (full : 2 ^ 52 ≤ a.mantissa)
    (positive : 0 < b.mantissa) (normal : 2 ^ (-1022 : Int) ≤ a.value * b.value) (bounded : a.value * b.value < tooGreat) :
    ∃ c, Binary64.parts? (x * y) = some c ∧ (a.negative = false → b.negative = false → c.negative = false) ∧
      NearestTo (a.value * b.value) c := by
  obtain ⟨s, unpacked, sign⟩ := unpack_of_parts left (by omega)
  obtain ⟨s', unpacked', sign'⟩ := unpack_of_parts right positive
  obtain ⟨M, t, grid, near, product⟩ := mul_nearest s s' (by omega) positive (.inl (log2_mul_of_full full positive))
  obtain ⟨c, parts, negative, nearest⟩ := carried_parts (s * s') grid near normal bounded
  refine ⟨c, ?_, fun first second => ?_, nearest⟩
  · rw [← parts, ← product, ← unpacked, ← unpacked']
    rfl
  · rw [negative]
    rw [first] at sign
    rw [second] at sign'
    cases s <;> cases s' <;> simp_all

/-- The quotient of two doubles is the double nearest to it. -/
theorem parts?_div (left : Binary64.parts? x = some a) (right : Binary64.parts? y = some b) (full : 2 ^ 52 ≤ a.mantissa)
    (full' : 2 ^ 52 ≤ b.mantissa) (normal : 2 ^ (-1000 : Int) ≤ a.value / b.value) (bounded : a.value / b.value < tooGreat) :
    ∃ c, Binary64.parts? (x / y) = some c ∧ (a.negative = false → b.negative = false → c.negative = false) ∧
      NearestTo (a.value / b.value) c := by
  obtain ⟨s, unpacked, sign⟩ := unpack_of_parts left (by omega)
  obtain ⟨s', unpacked', sign'⟩ := unpack_of_parts right (by omega)
  have bits := (parts?_canonical left).bits
  have bits' := (parts?_canonical right).bits
  have log : a.mantissa.log2 = 52 := (Nat.log2_eq_iff (by omega)).mpr ⟨full, bits⟩
  have log' : b.mantissa.log2 = 52 := (Nat.log2_eq_iff (by omega)).mpr ⟨full', bits'⟩
  have exponents : -1001 ≤ a.exponent - b.exponent := by
    have dividend : a.value ≤ 2 ^ (53 + a.exponent) := by
      rw [zpow_add₀ (by norm_num), Binary64.value]
      exact mul_le_mul_of_nonneg_right (by exact_mod_cast bits.le) (two_zpow_pos _).le
    have divisor : (2 : ℚ) ^ (52 + b.exponent) ≤ b.value := by
      rw [zpow_add₀ (by norm_num), Binary64.value]
      exact mul_le_mul_of_nonneg_right (by exact_mod_cast full') (two_zpow_pos _).le
    have quotient : a.value / b.value ≤ 2 ^ (53 + a.exponent) / 2 ^ (52 + b.exponent) :=
      div_le_div₀ (two_zpow_pos _).le dividend (two_zpow_pos _) divisor
    rw [← zpow_sub₀ (by norm_num)] at quotient
    have less := (zpow_le_zpow_iff_right₀ (by norm_num : (1 : ℚ) < 2)).mp (normal.trans quotient)
    omega
  have room : -1074 ≤ totalExponent a.mantissa a.exponent - totalExponent b.mantissa b.exponent - 53 := by
    rw [totalExponent, totalExponent, log, log']
    omega
  obtain ⟨M, t, grid, near, quotient⟩ := div_nearest s s' (by omega) (by omega) room
  have least : (2 : ℚ) ^ (-1022 : Int) ≤ a.value / b.value :=
    le_trans (zpow_le_zpow_right₀ (by norm_num) (by norm_num)) normal
  obtain ⟨c, parts, negative, nearest⟩ := carried_parts (s / s') grid near least bounded
  refine ⟨c, ?_, fun first second => ?_, nearest⟩
  · rw [← parts, ← quotient, ← unpacked, ← unpacked']
    rfl
  · rw [negative]
    rw [first] at sign
    rw [second] at sign'
    cases s <;> cases s' <;> simp_all

/-! ## Reading -/

/-- The powers of ten that are doubles. -/
theorem powers_parts : ∀ e (_ : e < Float.exactlyRepresentablePowersOfTen.size),
    ∃ b, Binary64.parts? Float.exactlyRepresentablePowersOfTen[e] = some b ∧ b.negative = false ∧
      0 < b.mantissa ∧ b.value = 10 ^ e := by
  have all : (List.finRange Float.exactlyRepresentablePowersOfTen.size).all (fun e =>
      (Binary64.parts? Float.exactlyRepresentablePowersOfTen[e]).any fun b => !b.negative && decide (0 < b.mantissa) &&
        decide (b.mantissa * 2 ^ b.exponent.toNat = 10 ^ e.val * 2 ^ (-b.exponent).toNat)) = true := by decide +kernel
  intro e h
  have here := List.all_eq_true.mp all ⟨e, h⟩ (List.mem_finRange _)
  obtain ⟨b, parts, here⟩ := (Option.any_eq_true _ _).mp here
  simp only [Bool.and_eq_true, Bool.not_eq_true', decide_eq_true_iff] at here
  obtain ⟨⟨negative, positive⟩, same⟩ := here
  refine ⟨b, parts, negative, positive, ?_⟩
  have cast : (b.mantissa : ℚ) * 2 ^ b.exponent.toNat = 10 ^ e * 2 ^ (-b.exponent).toNat := by exact_mod_cast same
  rw [Shortest.pow_toNat (by norm_num) b.exponent, mul_left_comm, mul_comm (10 ^ e : ℚ)] at cast
  exact mul_left_cancel₀ (by positivity) cast

theorem natural_bounds {n : Nat} (positive : 0 < n) : (2 : ℚ) ^ (-1022 : Int) ≤ n :=
  le_trans (zpow_le_one_of_nonpos₀ (by norm_num) (by norm_num)) (by exact_mod_cast positive)

/-- A natural number is converted to the double nearest to it. -/
theorem parts?_toFloat {n : Nat} (positive : 0 < n) (small : n < 2 ^ 53) :
    ∃ b, Binary64.parts? n.toUInt64.toFloat = some b ∧ b.negative = false ∧ NearestTo n b := by
  obtain ⟨M, t, grid, near, rounded⟩ := round_nearest .positive 0 positive
  rw [zpow_zero, mul_one] at grid near
  have few : (n : ℚ) < 2 ^ (53 : Nat) := by exact_mod_cast small
  have bounded : (n : ℚ) < tooGreat := by
    refine few.trans_le ?_
    have unit : (2 : ℚ) ≤ 2 ^ (971 : Int) := by
      have step : (2 : ℚ) ^ (1 : Int) ≤ 2 ^ (971 : Int) := zpow_le_zpow_right₀ (by norm_num) (by norm_num)
      rwa [zpow_one] at step
    rw [tooGreat]
    generalize (2 : ℚ) ^ (971 : Int) = u at *
    nlinarith
  obtain ⟨b, parts, sign, nearest⟩ := carried_parts .positive grid near (natural_bounds positive) bounded
  refine ⟨b, ?_, sign, nearest⟩
  have word : n.toUInt64.toNat = n := by
    rw [Nat.toUInt64, UInt64.toNat_ofNat']
    omega
  have normalized : UnpackedFloat.ofUInt64 Format.binary64 n.toUInt64 = UnpackedFloat.round Format.binary64 .positive n 0 := by
    show UnpackedFloat.normalize Format.binary64 (n.toUInt64.toNat : Int) 0 .positive = _
    rw [word, UnpackedFloat.normalize]
    have order : compare (n : Int) 0 = .gt := by
      rw [compare_gt_iff_gt]
      omega
    rw [order]
    rfl
  rw [← parts, ← rounded, ← normalized]
  rfl

/-- A multiple of a power of two that the grid has is not rounded. -/
theorem NearestTo.value_eq {r : ℚ} {b : Binary64} (nearest : NearestTo r b) {k : Nat} {e : Int} (few : k < 2 ^ 53)
    (least : -1074 ≤ e) (same : r = k * 2 ^ e) : b.value = r := by
  obtain ⟨-, M, t, grid, near, value⟩ := nearest
  have unit := two_zpow_pos t
  have below : t ≤ e := by
    rcases grid.2.2 with floor | above
    · omega
    · rw [same] at above
      have mantissa : (k : ℚ) * 2 ^ e < 2 ^ (53 + e) := by
        rw [zpow_add₀ (by norm_num)]
        exact mul_lt_mul_of_pos_right (by exact_mod_cast few) (two_zpow_pos e)
      have less := (zpow_lt_zpow_iff_right₀ (by norm_num : (1 : ℚ) < 2)).mp (above.trans_lt mantissa)
      omega
  have multiple : r = (k * 2 ^ (e - t).toNat : Nat) * 2 ^ t := by
    have back : (2 : ℚ) ^ (e - t).toNat * 2 ^ t = 2 ^ e := by
      rw [← zpow_natCast, ← zpow_add₀ (by norm_num)]
      congr 1
      omega
    push_cast
    rw [mul_assoc, back, same]
  obtain ⟨lower, upper, -⟩ := near
  rw [multiple] at lower upper
  have lower' := le_of_mul_le_mul_right lower unit
  have upper' := le_of_mul_le_mul_right upper unit
  have equal : M = k * 2 ^ (e - t).toNat := by
    generalize k * 2 ^ (e - t).toNat = n at *
    have above : (M : ℚ) < n + 1 := by linarith
    have under : (n : ℚ) < M + 1 := by linarith
    have above' : M < n + 1 := by exact_mod_cast above
    have under' : n < M + 1 := by exact_mod_cast under
    omega
  rw [value, equal, multiple]

/-- A decimal without a fraction reads as the double nearest to it. -/
theorem parts?_ofScientific {m e : Nat} (positive : 0 < m) (short : e ≤ 308) (bounded : (m * 10 ^ e : ℚ) < tooGreat) :
    ∃ b, Binary64.parts? (Float.ofScientific m false e) = some b ∧ b.negative = false ∧ NearestTo (m * 10 ^ e) b := by
  have normal : (2 : ℚ) ^ (-1022 : Int) ≤ m * 10 ^ e := by
    have some : 0 < m * 10 ^ e := by positivity
    exact_mod_cast natural_bounds some
  unfold Float.ofScientific
  split
  · rename_i fast
    obtain ⟨a, left, sign, nearest⟩ := parts?_toFloat positive fast.1
    have same : a.value = m := nearest.value_eq fast.1 (by norm_num : (-1074 : Int) ≤ 0) (by simp)
    have size : e < Float.exactlyRepresentablePowersOfTen.size := by
      show e < 23
      omega
    obtain ⟨b, right, sign', some, power⟩ := powers_parts e size
    rw [← same, ← power] at normal bounded ⊢
    obtain ⟨c, parts, plus, product⟩ := parts?_mul left right nearest.1 some normal bounded
    exact ⟨c, parts, plus sign sign', product⟩
  · have full : 2 ^ 52 ≤ m <<< 53 := by
      rw [Nat.shiftLeft_eq]
      omega
    have placed : 52 ≤ ((m <<< 53) * 10 ^ e).log2 ∨ (-53 : Int) + 0 ≤ -1074 :=
      .inl (log2_mul_of_full full (by positivity))
    obtain ⟨M, t, grid, near, product⟩ := mul_nearest .positive .positive (by omega) (by positivity) placed
    have exact : (((m <<< 53 : Nat) : ℚ) * 2 ^ (-53 : Int) * ((10 ^ e : Nat) * 2 ^ (0 : Int))) = m * 10 ^ e := by
      rw [Nat.shiftLeft_eq]
      push_cast
      rw [zpow_neg]
      field_simp
      norm_num
    rw [exact] at grid near
    obtain ⟨b, parts, sign, nearest⟩ := carried_parts (.positive * .positive) grid near normal bounded
    refine ⟨b, ?_, sign, nearest⟩
    rw [← parts, ← product]
    show Binary64.parts? (Float.ofModel (Float.Model.pack (UnpackedFloat.ofScientific Format.binary64 m (e : Int)))) = _
    rw [UnpackedFloat.ofScientific, dif_neg (by omega), if_neg, if_neg, if_pos (by omega)]
    · rfl
    · show ¬ (e : Int) < -((2 ^ 11 : Int) + m.log2)
      omega
    · show ¬ (e : Int) > 2 ^ 11
      omega

/-- So does a number of digits that fit into 64 bits, times a power of ten that is a double. -/
theorem parts?_nearest {digits e : Nat} (positive : 0 < digits) (word : digits < 2 ^ 64) (short : e ≤ 308)
    (bounded : (digits * 10 ^ e : ℚ) < tooGreat) :
    ∃ b, Binary64.parts? (nearest digits e) = some b ∧ b.negative = false ∧ NearestTo (digits * 10 ^ e) b := by
  have bits : digits.log2 < 64 := (Nat.log2_lt positive.ne').mpr word
  unfold nearest
  simp only
  rw [if_neg (by omega), if_neg (by omega)]
  have same : Float.ofScientific digits (decide ((e : Int) < 0)) (e : Int).natAbs = Float.ofScientific digits false e := by
    have plus : decide ((e : Int) < 0) = false := by simp
    rw [plus]
    rfl
  rw [same]
  exact parts?_ofScientific positive short bounded

end Scriptorium.Decimal

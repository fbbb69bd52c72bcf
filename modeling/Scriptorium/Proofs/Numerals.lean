import Scriptorium.Decimal.Layout
import Scriptorium.Json.Number
import Scriptorium.Proofs.Documents

/-!
# Values of numerals

What the digits of a numeral stand for. Every layout writes a decimal as a numeral of the same value (`arrange_value`),
in the form that documents ask for (`arrange_written`).
-/
namespace Scriptorium.Decimal

open Json (Written)

theorem ofDigits_append (a b : List Char) : ofDigits (a ++ b) = ofDigits a * 10 ^ b.length + ofDigits b := by
  show Nat.ofDigitChars 10 (a ++ b) 0 = Nat.ofDigitChars 10 a 0 * 10 ^ b.length + Nat.ofDigitChars 10 b 0
  rw [Nat.ofDigitChars_append, Nat.ofDigitChars_eq_ofDigitChars_zero, Nat.mul_comm]

@[simp] theorem ofDigits_toDigits (n : Nat) : ofDigits (Nat.toDigits 10 n) = n := Nat.ofDigitChars_ten_toDigits

@[simp] theorem ofDigits_zeros (n : Nat) : ofDigits (List.replicate n '0') = 0 := by
  show Nat.ofDigitChars 10 (List.replicate n '0') 0 = 0
  rw [Nat.ofDigitChars_replicate_zero, Nat.mul_zero]

theorem isDigit_toDigits {n : Nat} : ∀ c ∈ Nat.toDigits 10 n, c.isDigit = true := by
  intro c member
  exact Nat.isDigit_of_mem_toDigits (by decide) (by decide) member

/-- No number but zero begins with the digit zero. -/
theorem toDigits_begins {n : Nat} (positive : n ≠ 0) : ∃ c tail, Nat.toDigits 10 n = c :: tail ∧ c ≠ '0' := by
  induction n using Nat.strongRecOn with
  | ind n ih =>
    rw [Nat.toDigits_eq_if (by decide)]
    by_cases small : n < 10
    · rw [if_pos small]
      refine ⟨_, [], rfl, ?_⟩
      interval_cases n <;> simp_all [Nat.digitChar]
    · rw [if_neg small]
      obtain ⟨c, tail, same, other⟩ := ih (n / 10) (by omega) (by omega)
      exact ⟨c, _, by rw [same]; rfl, other⟩

theorem isWhole_cons {c : Char} {tail : List Char} (other : c ≠ '0') : Numeral.isWhole (c :: tail) = true := by
  cases tail with
  | nil => rfl
  | cons => simp [Numeral.isWhole, other]

private theorem isWhole_toDigits (n : Nat) : Numeral.isWhole (Nat.toDigits 10 n) = true := by
  by_cases zero : n = 0
  · rw [zero]
    rfl
  · obtain ⟨c, tail, same, other⟩ := toDigits_begins zero
    rw [same]
    exact isWhole_cons other

theorem written_ofNat (n : Nat) : Written (Numeral.ofNat n) where
  digits := isDigit_toDigits
  whole := isWhole_toDigits n
  fraction := nofun
  exponent := nofun

/-- The number of all digits of a numeral. -/
def Numeral.digits (n : Numeral) : Nat := ofDigits (n.whole ++ n.fraction)

/-- The power of ten of the last digit of a numeral. -/
def Numeral.places (n : Numeral) : Int := n.exponent.elim 0 Json.power - (n.fraction.length : Int)

/-- The value of a numeral, without its sign. -/
def Numeral.value (n : Numeral) : ℚ := n.digits * 10 ^ n.places

/-- The value of a decimal. -/
def Shortest.value (d : Shortest) : ℚ := d.digits * 10 ^ d.exponent

private theorem power_natAbs (sign : Option Sign) (power : Int) (minus : sign = some .minus ↔ power < 0) :
    Json.power ⟨sign, Nat.toDigits 10 power.natAbs⟩ = power := by
  unfold Json.power
  split
  · rename_i same
    have negative := minus.mp same
    rw [ofDigits_toDigits]
    omega
  · rename_i other
    have positive : ¬ power < 0 := fun negative => other (minus.mpr negative)
    rw [ofDigits_toDigits]
    omega

private theorem pointed_value (keepsPoint negative : Bool) (digits : List Char) (places : Int) :
    (Layout.pointed keepsPoint negative digits places).value = ofDigits digits * 10 ^ (places - digits.length) := by
  unfold Layout.pointed
  split
  · rename_i before
    simp only [Numeral.value, Numeral.digits, Numeral.places, Option.elim_none, ofDigits_append, ofDigits_zeros, List.length_append,
      List.length_replicate]
    rw [show ofDigits ['0'] = 0 from rfl]
    have same : (0 : Int) - (((-places).toNat + digits.length : Nat) : Int) = places - digits.length := by omega
    rw [same]
    simp
  · split
    · rename_i after long
      simp only [Numeral.value, Numeral.digits, Numeral.places, Option.elim_none, ofDigits_append, ofDigits_zeros, List.length_replicate]
      have same : places - digits.length = ((places.toNat - digits.length : Nat) : Int) := by omega
      rw [same, zpow_natCast]
      cases keepsPoint with
      | false => simp [ofDigits]
      | true =>
        simp only [if_true, List.length_singleton]
        rw [show ofDigits ['0'] = 0 from rfl]
        push_cast
        ring
    · rename_i after long
      simp only [Numeral.value, Numeral.digits, Numeral.places, Option.elim_none, List.take_append_drop, List.length_drop]
      have same : (0 : Int) - ((digits.length - places.toNat : Nat) : Int) = places - digits.length := by omega
      rw [same]

private theorem exponential_value (signsExponent negative : Bool) {digits : List Char} (filled : digits ≠ []) (power : Int) :
    (Layout.exponential signsExponent negative digits power).value =
      ofDigits digits * 10 ^ (power + 1 - digits.length) := by
  have long : 0 < digits.length := List.length_pos_iff.mpr filled
  simp only [Layout.exponential, Numeral.value, Numeral.digits, Numeral.places, Option.elim_some, List.take_append_drop, List.length_drop]
  rw [power_natAbs]
  · have same : power - ((digits.length - 1 : Nat) : Int) = power + 1 - digits.length := by omega
    rw [same]
  · by_cases negative : power < 0
    · simp [negative]
    · cases signsExponent <;> simp [negative]

/-- A decimal is written as a numeral of its value. -/
theorem arrange_value (layout : Layout) (negative : Bool) (d : Shortest) :
    (layout.arrange negative d).value = d.value := by
  have long : 0 < (Nat.toDigits 10 d.digits).length := Nat.length_toDigits_pos
  have same : ((Nat.toDigits 10 d.digits).length : Int) + d.exponent - 1 + 1 - (Nat.toDigits 10 d.digits).length =
      d.exponent := by omega
  unfold Layout.arrange
  simp only
  split
  · split
    · rw [pointed_value, same, ofDigits_toDigits, Shortest.value]
    · rw [exponential_value _ _ Nat.toDigits_ne_nil, same, ofDigits_toDigits, Shortest.value]
  · rw [pointed_value, same, ofDigits_toDigits, Shortest.value]

private theorem pointed_written (keepsPoint negative : Bool) {digits : List Char} (all : ∀ c ∈ digits, c.isDigit = true)
    {places : Int} (begins : (∃ c tail, digits = c :: tail ∧ c ≠ '0') ∨ digits = ['0'] ∧ places ≤ 1) :
    Written (Layout.pointed keepsPoint negative digits places) := by
  have zeros : ∀ n, ∀ c ∈ List.replicate n '0', c.isDigit = true := by
    intro n c member
    rw [List.eq_of_mem_replicate member]
    decide
  unfold Layout.pointed
  split
  · refine ⟨zeros 1, rfl, ?_, nofun⟩
    intro c member
    rcases List.mem_append.mp member with zero | digit
    · exact zeros _ c zero
    · exact all c digit
  · split
    · rename_i after long
      refine ⟨?_, ?_, ?_, nofun⟩
      · intro c member
        rcases List.mem_append.mp member with digit | zero
        · exact all c digit
        · exact zeros _ c zero
      · rcases begins with ⟨c, tail, rfl, other⟩ | ⟨rfl, small⟩
        · exact isWhole_cons other
        · have none : places.toNat - ['0'].length = 0 := by simp only [List.length_singleton]; omega
          simp only [none]
          rfl
      · cases keepsPoint <;> simp
    · rename_i after long
      refine ⟨fun c member => all c (List.mem_of_mem_take member), ?_,
        fun c member => all c (List.mem_of_mem_drop member), nofun⟩
      obtain ⟨count, same⟩ : ∃ count, places.toNat = count + 1 := ⟨places.toNat - 1, by omega⟩
      rcases begins with ⟨c, tail, rfl, other⟩ | ⟨rfl, small⟩
      · simp only [same, List.take_succ_cons]
        exact isWhole_cons other
      · simp only [List.length_singleton] at long
        omega

/-- A decimal is written in the form of a document; zero has no power of ten. -/
theorem arrange_written (layout : Layout) (negative : Bool) {d : Shortest} (plain : d.digits = 0 → d.exponent = 0) :
    Written (layout.arrange negative d) := by
  have all : ∀ c ∈ Nat.toDigits 10 d.digits, c.isDigit = true := isDigit_toDigits
  have begins : (∃ c tail, Nat.toDigits 10 d.digits = c :: tail ∧ c ≠ '0') ∨ Nat.toDigits 10 d.digits = ['0'] ∧
      ((Nat.toDigits 10 d.digits).length : Int) + d.exponent - 1 + 1 ≤ 1 := by
    by_cases zero : d.digits = 0
    · rw [zero, plain zero]
      exact .inr ⟨rfl, by decide⟩
    · exact .inl (toDigits_begins zero)
  unfold Layout.arrange
  simp only
  split
  · split
    · exact pointed_written _ _ all begins
    · refine ⟨fun c member => all c (List.mem_of_mem_take member), ?_,
        fun c member => all c (List.mem_of_mem_drop member), ?_⟩
      · cases shape : Nat.toDigits 10 d.digits with
        | nil => exact absurd shape Nat.toDigits_ne_nil
        | cons c tail => rfl
      · intro e same
        cases same
        exact ⟨Nat.toDigits_ne_nil, isDigit_toDigits⟩
  · exact pointed_written _ _ all begins

end Scriptorium.Decimal

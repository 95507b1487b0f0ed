import Mathlib.Algebra.Order.Ring.Int
import Mathlib.Tactic.Ring
import ToolServer.Decimal.Double

/-!
# Equal numbers

Numbers are equal if they have one value: of the finite numbers only zero has two forms. So two numbers that
equal one integer equal each other.
-/

namespace ToolServer.Decimal.Double

/-! ## Fields -/

/-- The exponent of a finite number, counted from the least one. -/
def scale (x : Double) : Nat := x.exponentField - 1

def depth : Nat := 1074

def signed (x : Double) : Int := if x.isNegative then -(x.mantissa : Int) else x.mantissa

theorem natAbs_signed (x : Double) : x.signed.natAbs = x.mantissa := by
  unfold signed
  split <;> simp

theorem mantissa_of_field_zero {x : Double} (h : x.exponentField = 0) : x.mantissa = x.fraction := if_pos h

theorem mantissa_of_field_ne {x : Double} (h : x.exponentField ≠ 0) : x.mantissa = 2 ^ 52 + x.fraction :=
  if_neg h

theorem fraction_lt (x : Double) : x.fraction < 2 ^ 52 := Nat.mod_lt _ (Nat.two_pow_pos 52)

theorem mantissa_lt (x : Double) : x.mantissa < 2 ^ 53 := by
  have hf := x.fraction_lt
  by_cases h : x.exponentField = 0
  · rw [mantissa_of_field_zero h]
    omega
  · rw [mantissa_of_field_ne h]
    omega

theorem scale_eq_zero_or (x : Double) : x.scale = 0 ∨ 2 ^ 52 ≤ x.mantissa := by
  by_cases h : x.exponentField = 0
  · exact .inl (by rw [scale, h])
  · exact .inr (by rw [mantissa_of_field_ne h]; exact Nat.le_add_right ..)

theorem eq_of_fields {x y : Double} (hsign : x.isNegative = y.isNegative)
    (hexp : x.exponentField = y.exponentField) (hfrac : x.fraction = y.fraction) : x = y := by
  have hx := x.bits.toNat_lt
  have hy := y.bits.toNat_lt
  have hsign : x.bits.toNat / 2 ^ 63 = 1 ↔ y.bits.toNat / 2 ^ 63 = 1 := by
    simpa [isNegative] using hsign
  have hexp : x.bits.toNat / 2 ^ 52 % 2 ^ 11 = y.bits.toNat / 2 ^ 52 % 2 ^ 11 := hexp
  have hfrac : x.bits.toNat % 2 ^ 52 = y.bits.toNat % 2 ^ 52 := hfrac
  have hbits : x.bits.toNat = y.bits.toNat := by omega
  cases x
  cases y
  exact congrArg _ (UInt64.toNat_inj.mp hbits)

theorem fields_eq {x y : Double} (hm : x.mantissa = y.mantissa) (hs : x.scale = y.scale) :
    x.exponentField = y.exponentField ∧ x.fraction = y.fraction := by
  have hx := x.fraction_lt
  have hy := y.fraction_lt
  unfold scale at hs
  by_cases h : x.exponentField = 0 <;> by_cases h' : y.exponentField = 0
  · rw [mantissa_of_field_zero h, mantissa_of_field_zero h'] at hm
    exact ⟨by rw [h, h'], hm⟩
  · rw [mantissa_of_field_zero h, mantissa_of_field_ne h'] at hm
    omega
  · rw [mantissa_of_field_ne h, mantissa_of_field_zero h'] at hm
    omega
  · rw [mantissa_of_field_ne h, mantissa_of_field_ne h'] at hm
    omega

theorem isZero_of_mantissa {x : Double} (h : x.mantissa = 0) : x.isZero = true := by
  by_cases hf : x.exponentField = 0
  · rw [mantissa_of_field_zero hf] at h
    simp [isZero, hf, h]
  · rw [mantissa_of_field_ne hf] at h
    omega

/-! ## Values -/

theorem quotient_eq (x : Double) :
    ∃ p q : Nat, x.quotient = (x.signed * 2 ^ q, 2 ^ p) ∧ x.scale + p = depth + q := by
  unfold quotient
  by_cases h : x.exponent < 0
  · rw [if_pos h]
    refine ⟨x.exponent.natAbs, 0, by simp [signed], ?_⟩
    unfold scale depth
    unfold exponent at h ⊢
    split at h
    · simp_all
    · simp_all
      omega
  · rw [if_neg h]
    refine ⟨0, x.exponent.natAbs, by simp [signed], ?_⟩
    unfold scale depth
    unfold exponent at h ⊢
    split at h
    · simp_all
    · simp_all
      omega

/-- A number is an integer if it is one in multiples of the least positive number. -/
theorem equalsInt_iff {x : Double} {n : Int} : x.equalsInt n = true ↔
    x.exponentField ≠ 2047 ∧ x.signed * 2 ^ x.scale = n * 2 ^ depth := by
  obtain ⟨p, q, hq, hpq⟩ := x.quotient_eq
  have hpos (k : Nat) : (2 : Int) ^ k ≠ 0 := pow_ne_zero k (by decide)
  have hscaled : x.signed * 2 ^ q = n * 2 ^ p ↔ x.signed * 2 ^ x.scale = n * 2 ^ depth := by
    calc x.signed * 2 ^ q = n * 2 ^ p
      _ ↔ x.signed * 2 ^ q * 2 ^ depth = n * 2 ^ p * 2 ^ depth := (Int.mul_eq_mul_right_iff (hpos depth)).symm
      _ ↔ x.signed * 2 ^ x.scale * 2 ^ p = n * 2 ^ depth * 2 ^ p := by
        rw [mul_assoc, ← pow_add, Nat.add_comm q, ← hpq, pow_add, mul_assoc x.signed, mul_right_comm n]
      _ ↔ x.signed * 2 ^ x.scale = n * 2 ^ depth := Int.mul_eq_mul_right_iff (hpos p)
  simp [equalsInt, hq, hscaled]

/-- Of two forms of one value neither has the smaller scale. -/
theorem scale_le {x y : Double} (h : x.mantissa * 2 ^ x.scale = y.mantissa * 2 ^ y.scale) :
    y.scale ≤ x.scale := by
  by_contra hlt
  obtain ⟨d, hd⟩ := Nat.exists_eq_add_of_lt (Nat.lt_of_not_le hlt)
  have hy : 2 ^ 52 ≤ y.mantissa := y.scale_eq_zero_or.resolve_left (by omega)
  have hx : x.mantissa = y.mantissa * 2 ^ d * 2 := by
    rw [hd, Nat.add_assoc, Nat.add_comm, pow_add, ← mul_assoc] at h
    have h' := Nat.eq_of_mul_eq_mul_right (Nat.two_pow_pos _) h
    rw [h', pow_succ, mul_assoc]
  have hd : 1 ≤ 2 ^ d := Nat.one_le_two_pow
  have hle : y.mantissa * 1 ≤ y.mantissa * 2 ^ d := Nat.mul_le_mul_left _ hd
  have hlt := x.mantissa_lt
  omega

theorem eq_of_equalsInt {x : Double} {m n : Int} (hm : x.equalsInt m = true) (hn : x.equalsInt n = true) :
    m = n := by
  have h := (equalsInt_iff.mp hm).2.symm.trans (equalsInt_iff.mp hn).2
  exact Int.eq_of_mul_eq_mul_right (pow_ne_zero _ (by decide)) h

theorem isNan_of_isZero {x : Double} (h : x.isZero = true) : x.isNan = false := by
  simp_all [isZero, isNan]

theorem equals_iff {x y : Double} : x.equals y = true ↔
    x.isNan = false ∧ x = y ∨ x.isZero = true ∧ y.isZero = true := by
  simp only [equals, Bool.and_eq_true, Bool.not_eq_true', Bool.or_eq_true, beq_iff_eq]
  constructor
  · rintro ⟨hnan, h | h⟩
    · exact .inl ⟨hnan, h⟩
    · exact .inr h
  · rintro (⟨hnan, h⟩ | h)
    · exact ⟨hnan, .inl h⟩
    · exact ⟨isNan_of_isZero h.1, .inr h⟩

theorem equals_symm {x y : Double} (h : x.equals y = true) : y.equals x = true := by
  rcases equals_iff.mp h with ⟨hnan, rfl⟩ | ⟨hx, hy⟩
  · exact h
  · exact equals_iff.mpr (.inr ⟨hy, hx⟩)

theorem equals_trans {x y z : Double} (h : x.equals y = true) (h' : y.equals z = true) : x.equals z = true := by
  rcases equals_iff.mp h with ⟨-, rfl⟩ | ⟨hx, hy⟩
  · exact h'
  · rcases equals_iff.mp h' with ⟨-, rfl⟩ | ⟨-, hz⟩
    · exact h
    · exact equals_iff.mpr (.inr ⟨hx, hz⟩)

theorem equals_of_equalsInt {x y : Double} {n : Int} (hx : x.equalsInt n = true) (hy : y.equalsInt n = true) :
    x.equals y = true := by
  obtain ⟨hfield, hx⟩ := equalsInt_iff.mp hx
  obtain ⟨-, hy⟩ := equalsInt_iff.mp hy
  have hxy : x.signed * 2 ^ x.scale = y.signed * 2 ^ y.scale := hx.trans hy.symm
  have habs : x.mantissa * 2 ^ x.scale = y.mantissa * 2 ^ y.scale := by
    simpa [Int.natAbs_mul, Int.natAbs_pow, natAbs_signed] using congrArg Int.natAbs hxy
  have hscale : x.scale = y.scale := Nat.le_antisymm (scale_le habs.symm) (scale_le habs)
  rw [hscale] at hxy habs
  have hm : x.mantissa = y.mantissa := Nat.eq_of_mul_eq_mul_right (Nat.two_pow_pos _) habs
  by_cases hzero : x.mantissa = 0
  · exact equals_iff.mpr (.inr ⟨isZero_of_mantissa hzero, isZero_of_mantissa (hm ▸ hzero)⟩)
  · have hsign : x.signed = y.signed := Int.eq_of_mul_eq_mul_right (pow_ne_zero _ (by decide)) hxy
    have hneg : x.isNegative = y.isNegative := by
      unfold signed at hsign
      split at hsign <;> split at hsign
      · simp_all
      · omega
      · omega
      · simp_all
    obtain ⟨hexp, hfrac⟩ := fields_eq hm hscale
    exact equals_iff.mpr (.inl ⟨by simp [isNan, hfield], eq_of_fields hneg hexp hfrac⟩)

theorem equalsInt_iff_of_isZero {x : Double} (h : x.isZero = true) {n : Int} : x.equalsInt n = true ↔ n = 0 := by
  obtain ⟨hexp, hfrac⟩ : x.exponentField = 0 ∧ x.fraction = 0 := by simpa [isZero] using h
  have hm : x.mantissa = 0 := by rw [mantissa_of_field_zero hexp, hfrac]
  have hsigned : x.signed = 0 := by rw [← Int.natAbs_eq_zero, natAbs_signed, hm]
  rw [equalsInt_iff, hexp, hsigned, zero_mul]
  simp

theorem equalsInt_of_equals {x y : Double} {n : Int} (h : x.equals y = true) (hx : x.equalsInt n = true) :
    y.equalsInt n = true := by
  rcases equals_iff.mp h with ⟨-, rfl⟩ | ⟨hzero, hzero'⟩
  · exact hx
  · exact (equalsInt_iff_of_isZero hzero').mpr ((equalsInt_iff_of_isZero hzero).mp hx)

end ToolServer.Decimal.Double

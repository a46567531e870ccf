import Mathlib.Algebra.Order.Field.Rat
import Mathlib.Tactic.FieldSimp
import Mathlib.Tactic.Ring
import ScopeChain.Value

/-!
Integers as numbers in floating point.  The bits of an integer up to `2 ^ 53` in magnitude have its
sign, the place of its leading one as the exponent and the rest of it as the fraction, and nothing of
it is cut off: the number that they denote is the integer.
-/

namespace ScopeChain

namespace Binary64

/-! ### The number that bits denote -/

/-- The rational number that the bits of a finite number denote: the significand times a power of
two, with the sign. -/
def value (x : Binary64) : ℚ :=
  (if x.isNegative then -1 else 1) * (x.significand * 2 ^ x.exponent)

/-- The bits consist of these fields. -/
structure HasFields (x : Binary64) (negative : Bool) (exponent fraction : Nat) : Prop where
  isNegative : x.isNegative = negative
  biasedExponent : x.biasedExponent = exponent
  fraction : x.fraction = fraction

theorem hasFields_of_bits (negative : Bool) {e f : Nat} (he : e < 2 ^ 11) (hf : f < 2 ^ 52) :
    HasFields ⟨UInt64.ofNat ((if negative then Nat.pow 2 63 else 0) + (e * Nat.pow 2 52 + f))⟩
      negative e f := by
  simp only [Nat.pow_eq]
  have hbits : (UInt64.ofNat ((if negative then 2 ^ 63 else 0) + (e * 2 ^ 52 + f))).toNat =
      (if negative then 2 ^ 63 else 0) + (e * 2 ^ 52 + f) := by
    refine UInt64.toNat_ofNat_of_lt' ?_
    change _ < 2 ^ 64
    split <;> omega
  constructor
  · rw [Binary64.isNegative, hbits, Nat.pow_eq]
    cases negative with
    | true => simp
    | false => simp; omega
  · rw [Binary64.biasedExponent, hbits, Nat.pow_eq, Nat.pow_eq]
    split <;> omega
  · rw [Binary64.fraction, hbits, Nat.pow_eq]
    split <;> omega

namespace HasFields

variable {x : Binary64} {negative : Bool} {e f : Nat}

theorem isNaN_eq_false (h : x.HasFields negative e f) (he : e < 2047) : x.isNaN = false := by
  rw [isNaN, h.biasedExponent, beq_eq_false_iff_ne.mpr (Nat.ne_of_lt he), Bool.false_and]

theorem isInfinite_eq_false (h : x.HasFields negative e f) (he : e < 2047) :
    x.isInfinite = false := by
  rw [isInfinite, h.biasedExponent, beq_eq_false_iff_ne.mpr (Nat.ne_of_lt he), Bool.false_and]

/-- A normal number, with the leading one before its fraction. -/
theorem value_of_ne_zero (h : x.HasFields negative e f) (he : e ≠ 0) :
    x.value = (if negative then -1 else 1) * (((2 ^ 52 + f : Nat) : ℚ) * 2 ^ ((e : Int) - 1075)) := by
  rw [Binary64.value, significand, exponent, h.isNegative, h.biasedExponent, h.fraction, if_neg he,
    if_neg he, Nat.pow_eq]

theorem value_of_zero (h : x.HasFields negative 0 0) : x.value = 0 := by
  rw [Binary64.value, significand, h.biasedExponent, h.fraction, if_pos rfl]
  simp

end HasFields

theorem value_of_isZero {x : Binary64} (h : x.isZero = true) : x.value = 0 := by
  have hzero : x.bits.toNat % 2 ^ 63 = 0 := by
    rw [isZero, beq_iff_eq, Nat.pow_eq] at h
    exact h
  have hexponent : x.biasedExponent = 0 := by
    rw [biasedExponent, Nat.pow_eq, Nat.pow_eq]
    omega
  have hfraction : x.fraction = 0 := by
    rw [fraction, Nat.pow_eq]
    omega
  exact HasFields.value_of_zero ⟨rfl, hexponent, hfraction⟩

/-! ### The bits of an integer -/

/-- The significand to which a positive integer is brought: the integer, shifted so that its leading
one is at the implicit place. -/
def normalized (m : Nat) : Nat :=
  m * 2 ^ 53 / 2 ^ (m.log2 + 1)

section

variable {m : Nat}

theorem log2_le_of_le (hm : m ≤ 2 ^ 53) : m.log2 ≤ 53 := by
  by_cases h0 : m = 0
  · simp [h0]
  · have hle := Nat.log2_self_le h0
    exact (Nat.pow_le_pow_iff_right (by decide)).mp (hle.trans hm)

/-- The shift cuts nothing off.  Below `2 ^ 53` it goes to the left; `2 ^ 53` itself is shifted to the
right by one place, where it has a zero. -/
theorem normalized_mul (h0 : m ≠ 0) (hm : m ≤ 2 ^ 53) :
    normalized m * 2 ^ (m.log2 + 1) = m * 2 ^ 53 := by
  refine Nat.div_mul_cancel ?_
  have hle := Nat.log2_self_le h0
  rcases Nat.lt_or_eq_of_le (log2_le_of_le hm) with hlog | hlog
  · exact Dvd.dvd.mul_left (Nat.pow_dvd_pow 2 hlog) m
  · rw [hlog] at hle ⊢
    rw [Nat.le_antisymm hm hle]
    decide

theorem le_normalized (h0 : m ≠ 0) (hm : m ≤ 2 ^ 53) : 2 ^ 52 ≤ normalized m := by
  refine Nat.le_of_mul_le_mul_right ?_ (Nat.two_pow_pos (m.log2 + 1))
  calc
    2 ^ 52 * 2 ^ (m.log2 + 1) = 2 ^ m.log2 * 2 ^ 53 := by ring
    _ ≤ m * 2 ^ 53 := Nat.mul_le_mul_right _ (Nat.log2_self_le h0)
    _ = normalized m * 2 ^ (m.log2 + 1) := (normalized_mul h0 hm).symm

theorem normalized_lt (h0 : m ≠ 0) (hm : m ≤ 2 ^ 53) : normalized m < 2 ^ 53 := by
  refine Nat.lt_of_mul_lt_mul_right (a := 2 ^ (m.log2 + 1)) ?_
  calc
    normalized m * 2 ^ (m.log2 + 1) = m * 2 ^ 53 := normalized_mul h0 hm
    _ < 2 ^ (m.log2 + 1) * 2 ^ 53 := Nat.mul_lt_mul_of_pos_right Nat.lt_log2_self (by decide)
    _ = 2 ^ 53 * 2 ^ (m.log2 + 1) := Nat.mul_comm _ _

theorem normalized_mul_zpow (h0 : m ≠ 0) (hm : m ≤ 2 ^ 53) :
    (normalized m : ℚ) * 2 ^ ((m.log2 + 1023 : Nat) - 1075 : Int) = m := by
  have hmul : (normalized m : ℚ) * 2 ^ (m.log2 + 1) = m * 2 ^ 53 := by
    exact_mod_cast normalized_mul h0 hm
  have hexponent : ((m.log2 + 1023 : Nat) - 1075 : Int) = (m.log2 + 1 : Nat) - (53 : Nat) := by
    omega
  rw [hexponent, zpow_sub₀ (by norm_num), zpow_natCast, zpow_natCast, ← mul_div_assoc, hmul]
  field_simp

/-- The bits of a magnitude are fields of a finite number, and with whatever sign they denote the
magnitude with that sign. -/
theorem exists_fields (hm : m ≤ 2 ^ 53) :
    ∃ e f, e < 2047 ∧ f < 2 ^ 52 ∧ bitsOfNat m = e * Nat.pow 2 52 + f ∧
      ∀ x negative, HasFields x negative e f → x.value = (if negative then -1 else 1) * m := by
  by_cases h0 : m = 0
  · refine ⟨0, 0, by decide, by decide, by rw [bitsOfNat, if_pos h0], fun x negative h => ?_⟩
    rw [h.value_of_zero, h0, Nat.cast_zero, mul_zero]
  · have hlog := log2_le_of_le hm
    have hge := le_normalized h0 hm
    have hlt := normalized_lt h0 hm
    refine ⟨m.log2 + 1023, normalized m - 2 ^ 52, by omega, by omega, ?_, fun x negative h => ?_⟩
    · rw [bitsOfNat, if_neg h0]
      rfl
    · rw [h.value_of_ne_zero (by omega), Nat.add_sub_cancel' hge, normalized_mul_zpow h0 hm]

end

theorem ofInt?_eq_some_iff {n : Int} {x : Binary64} :
    ofInt? n = some x ↔ n.natAbs ≤ 2 ^ 53 ∧
      x = ⟨UInt64.ofNat ((if n < 0 then Nat.pow 2 63 else 0) + bitsOfNat n.natAbs)⟩ := by
  have hlimit : exactLimit = 2 ^ 53 := rfl
  rw [ofInt?, hlimit]
  constructor
  · intro h
    split at h
    · rename_i hle
      exact ⟨hle, (Option.some.inj h).symm⟩
    · cases h
  · rintro ⟨hle, rfl⟩
    rw [if_pos hle]

/-- What an integer becomes: its sign beside the fields of its magnitude. -/
structure Converted (n : Int) (x : Binary64) : Prop where
  isNaN : x.isNaN = false
  isInfinite : x.isInfinite = false
  isNegative : x.isNegative = decide (n < 0)
  value : x.value = n

theorem sign_mul_natAbs (n : Int) :
    (if decide (n < 0) then (-1 : ℚ) else 1) * (n.natAbs : ℚ) = n := by
  rw [← Int.cast_natCast, Int.natCast_natAbs]
  by_cases hneg : n < 0
  · rw [if_pos (decide_eq_true hneg), abs_of_neg hneg, Int.cast_neg]
    ring
  · rw [if_neg (by simpa using hneg), abs_of_nonneg (not_lt.mp hneg), one_mul]

theorem converted_of_ofInt? {n : Int} {x : Binary64} (h : ofInt? n = some x) : Converted n x := by
  obtain ⟨hle, rfl⟩ := ofInt?_eq_some_iff.mp h
  obtain ⟨e, f, he, hf, hbits, hvalue⟩ := exists_fields hle
  have hfields := hasFields_of_bits (decide (n < 0)) (he.trans (by decide)) hf
  simp only [decide_eq_true_eq, ← hbits] at hfields
  exact ⟨hfields.isNaN_eq_false he, hfields.isInfinite_eq_false he, hfields.isNegative,
    (hvalue _ _ hfields).trans (sign_mul_natAbs n)⟩

namespace Converted

variable {m n : Int} {x y : Binary64}

theorem equals_iff (hx : Converted m x) (hy : Converted n y) (hxy : m = n → x = y) :
    x.equals y = true ↔ m = n := by
  rw [Binary64.equals_iff]
  constructor
  · rintro ⟨-, -, rfl | ⟨hzero, hzero'⟩⟩
    · exact_mod_cast hx.value.symm.trans hy.value
    · have hvalue : (m : ℚ) = n := by
        rw [← hx.value, ← hy.value, value_of_isZero hzero, value_of_isZero hzero']
      exact_mod_cast hvalue
  · intro h
    exact ⟨hx.isNaN, hy.isNaN, .inl (hxy h)⟩

end Converted

end Binary64

namespace Value

theorem float?_int (n : Int64) : (Value.int n).float? = Binary64.ofInt? n.toInt := rfl

/-- An integer is a number in floating point exactly up to `2 ^ 53` in magnitude.  That number is
finite and denotes the integer, and only the integers below zero have the negative sign.  So
different integers become different numbers, and in the same order. -/
theorem float?_int_exact (n : Int64) :
    ((Value.int n).float?.isSome = true ↔ -2 ^ 53 ≤ n.toInt ∧ n.toInt ≤ 2 ^ 53) ∧
      (∀ x, (Value.int n).float? = some x →
        x.isNaN = false ∧ x.isInfinite = false ∧ x.value = n.toInt ∧
          (x.isNegative = true ↔ n.toInt < 0)) ∧
      ∀ m x y, (Value.int n).float? = some x → (Value.int m).float? = some y →
        (x = y ↔ n = m) ∧ (x.equals y = true ↔ n = m) ∧ (x.value < y.value ↔ n < m) := by
  simp only [float?_int]
  refine ⟨?_, fun x hx => ?_, fun m x y hx hy => ?_⟩
  · rw [Option.isSome_iff_exists]
    simp only [Binary64.ofInt?_eq_some_iff, exists_and_left, exists_eq, and_true]
    omega
  · have h := Binary64.converted_of_ofInt? hx
    exact ⟨h.isNaN, h.isInfinite, h.value, by rw [h.isNegative, decide_eq_true_eq]⟩
  · have hn := Binary64.converted_of_ofInt? hx
    have hm := Binary64.converted_of_ofInt? hy
    have hinj : n.toInt = m.toInt ↔ n = m := Int64.toInt_inj
    have hsame : n.toInt = m.toInt → x = y := by
      intro h
      rw [h] at hx
      exact Option.some.inj (hx.symm.trans hy)
    refine ⟨⟨?_, fun h => hsame (hinj.mpr h)⟩, ?_, ?_⟩
    · rintro rfl
      exact hinj.mp (by exact_mod_cast hn.value.symm.trans hm.value)
    · rw [hn.equals_iff hm hsame, hinj]
    · rw [hn.value, hm.value, Int.cast_lt, Int64.lt_iff_toInt_lt]

/-- The least and the greatest integer that is converted, and the next one. -/
theorem float?_int_at_limits :
    (∃ x y, (Value.int (-9007199254740992)).float? = some x ∧
        (Value.int 9007199254740992).float? = some y ∧ x.value = -9007199254740992 ∧
        y.value = 9007199254740992 ∧ x.value < y.value ∧ x.equals y = false) ∧
      (Value.int 9007199254740993).float? = none := by
  obtain ⟨hleast, hx, horder⟩ := float?_int_exact (-9007199254740992)
  obtain ⟨hgreatest, hy, -⟩ := float?_int_exact 9007199254740992
  obtain ⟨x, hfirst⟩ := Option.isSome_iff_exists.mp (hleast.mpr ⟨by decide, by decide⟩)
  obtain ⟨y, hlast⟩ := Option.isSome_iff_exists.mp (hgreatest.mpr ⟨by decide, by decide⟩)
  obtain ⟨-, hdiffer, hlt⟩ := horder _ x y hfirst hlast
  refine ⟨⟨x, y, hfirst, hlast, ?_, ?_, hlt.mpr (by decide), ?_⟩, ?_⟩
  · exact (hx x hfirst).2.2.1
  · exact (hy y hlast).2.2.1
  · rw [Bool.eq_false_iff]
    exact mt hdiffer.mp (by decide)
  · rw [← Option.not_isSome_iff_eq_none, (float?_int_exact 9007199254740993).1]
    decide

end Value

end ScopeChain

import Mathlib.Algebra.Order.Field.Power
import Mathlib.Data.Int.Log
import Mathlib.Data.Nat.Factorization.Basic
import Mathlib.Data.Rat.Floor
import Mathlib.Tactic.Linarith
import Mathlib.Tactic.Positivity
import Mathlib.Tactic.Ring

/-! # Rounding to double precision

    The doubles are the rationals `m * 2 ^ e` with a significand `m` of 53 bits.
    `nearest` is the double nearest to a rational that is not negative, the even
    significand winning a tie; beyond the largest double it is infinity (`ofRat`).
-/

namespace Framework.Binary64

/-! ## To the nearest integer -/

def roundEven (x : ℚ) : ℤ :=
  let k := ⌊x⌋
  if x - k < 1 / 2 then k else if 1 / 2 < x - k then k + 1 else k + k % 2

theorem roundEven_error (x : ℚ) : |(roundEven x : ℚ) - x| ≤ 1 / 2 := by
  have hlow : (⌊x⌋ : ℚ) ≤ x := Int.floor_le x
  have hhigh : x < ⌊x⌋ + 1 := Int.lt_floor_add_one x
  unfold roundEven
  dsimp only
  by_cases hbelow : x - ⌊x⌋ < 1 / 2
  · rw [if_pos hbelow, abs_le]
    constructor <;> linarith
  · rw [if_neg hbelow]
    by_cases habove : 1 / 2 < x - ⌊x⌋
    · rw [if_pos habove, abs_le]
      push_cast
      constructor <;> linarith
    · -- the midpoint, where the parity decides
      rw [if_neg habove]
      have hmid : x - ⌊x⌋ = 1 / 2 := le_antisymm (not_lt.mp habove) (not_lt.mp hbelow)
      have hparity : ⌊x⌋ % 2 = 0 ∨ ⌊x⌋ % 2 = 1 := by omega
      rcases hparity with hp | hp
      · rw [hp, abs_le]
        push_cast
        constructor <;> linarith
      · rw [hp, abs_le]
        push_cast
        constructor <;> linarith

theorem roundEven_of_near {x : ℚ} {k : ℤ} (h : |x - k| < 1 / 2) : roundEven x = k := by
  have herror := roundEven_error x
  have hclose : |(roundEven x : ℚ) - k| < 1 := by
    have htriangle : |(roundEven x : ℚ) - k| ≤ |(roundEven x : ℚ) - x| + |x - k| :=
      abs_sub_le _ _ _
    linarith
  have hint : |roundEven x - k| < 1 := by exact_mod_cast hclose
  have hzero := Int.abs_lt_one_iff.mp hint
  omega

theorem roundEven_intCast (k : ℤ) : roundEven k = k :=
  roundEven_of_near (by simp)

/-! ## To the nearest double -/

def ulp (x : ℚ) : ℚ := 2 ^ max (Int.log 2 x - 52) (-1074)

def nearest (x : ℚ) : ℚ := roundEven (x / ulp x) * ulp x

def ofRat (x : ℚ) : Option ℚ := if nearest x < 2 ^ 1024 then some (nearest x) else none

theorem ulp_pos (x : ℚ) : 0 < ulp x := by
  unfold ulp
  positivity

/-- Rounding to multiples of `h` moves a number by half of it at most. -/
theorem scaled_roundEven_error (x : ℚ) {h : ℚ} (hpos : 0 < h) :
    |roundEven (x / h) * h - x| ≤ h / 2 := by
  have herror := roundEven_error (x / h)
  have hfactor : (roundEven (x / h) : ℚ) * h - x = (roundEven (x / h) - x / h) * h := by
    rw [sub_mul, div_mul_cancel₀ x hpos.ne']
  rw [hfactor, abs_mul, abs_of_pos hpos]
  calc |(roundEven (x / h) : ℚ) - x / h| * h ≤ 1 / 2 * h :=
        mul_le_mul_of_nonneg_right herror hpos.le
    _ = h / 2 := by ring

theorem ulp_le {x : ℚ} (hx : 0 < x) : ulp x ≤ x / 2 ^ 52 + 1 / 2 ^ 70 := by
  have hlog : (2 : ℚ) ^ Int.log 2 x ≤ x := Int.zpow_log_le_self (by norm_num) hx
  unfold ulp
  rcases max_choice (Int.log 2 x - 52) (-1074) with hmax | hmax
  · rw [hmax, zpow_sub₀ (by norm_num)]
    have hle : (2 : ℚ) ^ Int.log 2 x / 2 ^ (52 : ℤ) ≤ x / 2 ^ 52 := by
      rw [show (2 : ℚ) ^ (52 : ℤ) = 2 ^ 52 by norm_num]
      exact div_le_div_of_nonneg_right hlog (by norm_num)
    have hpos : (0 : ℚ) ≤ 1 / 2 ^ 70 := by positivity
    linarith
  · rw [hmax]
    have hsmall : (2 : ℚ) ^ (-1074 : ℤ) ≤ 2 ^ (-70 : ℤ) := zpow_le_zpow_right₀ (by norm_num) (by norm_num)
    have hseventy : (2 : ℚ) ^ (-70 : ℤ) = 1 / 2 ^ 70 := by
      rw [zpow_neg, one_div]
      norm_num
    have hpos : 0 ≤ x / 2 ^ 52 := by positivity
    calc (2 : ℚ) ^ (-1074 : ℤ) ≤ 2 ^ (-70 : ℤ) := hsmall
      _ = 1 / 2 ^ 70 := hseventy
      _ ≤ x / 2 ^ 52 + 1 / 2 ^ 70 := le_add_of_nonneg_left hpos

theorem nearest_error {x : ℚ} (hx : 0 ≤ x) : |nearest x - x| ≤ x / 2 ^ 53 + 1 / 2 ^ 71 := by
  rcases hx.eq_or_lt with rfl | hpos
  · have hzero : nearest 0 = 0 := by
      unfold nearest
      rw [zero_div, show ((0 : ℚ)) = ((0 : ℤ) : ℚ) by norm_num, roundEven_intCast]
      simp
    rw [hzero]
    norm_num
  · have herror := scaled_roundEven_error x (ulp_pos x)
    have hulp := ulp_le hpos
    have hhalf : ulp x / 2 ≤ x / 2 ^ 53 + 1 / 2 ^ 71 := by
      calc ulp x / 2 ≤ (x / 2 ^ 52 + 1 / 2 ^ 70) / 2 := by linarith
        _ = x / 2 ^ 53 + 1 / 2 ^ 71 := by ring
    exact herror.trans hhalf

/-! ## The numbers that are doubles -/

def IsDouble (n : ℕ) : Prop := ∃ m e : ℕ, m < 2 ^ 53 ∧ n = m * 2 ^ e

theorem nearest_of_multiple {x : ℚ} {k : ℤ} (h : x = k * ulp x) : nearest x = x := by
  have hquotient : x / ulp x = k := by
    rw [div_eq_iff (ulp_pos x).ne']
    exact h
  unfold nearest
  rw [hquotient, roundEven_intCast]
  exact h.symm

theorem IsDouble.nearest_eq {n : ℕ} (h : IsDouble n) : nearest n = n := by
  obtain ⟨m, e, hm, rfl⟩ := h
  rcases Nat.eq_zero_or_pos m with rfl | hpos
  · exact nearest_of_multiple (k := 0) (by simp)
  · -- the unit of such a number is at most `2 ^ e`
    have hvalue : ((m * 2 ^ e : ℕ) : ℚ) = m * 2 ^ (e : ℤ) := by
      push_cast
      rw [zpow_natCast]
    have hx : (0 : ℚ) < ((m * 2 ^ e : ℕ) : ℚ) := by
      have : 0 < m * 2 ^ e := by positivity
      exact_mod_cast this
    have hsize : ((m * 2 ^ e : ℕ) : ℚ) < ((2 : ℕ) : ℚ) ^ (53 + e : ℤ) := by
      have hmq : (m : ℚ) < 2 ^ 53 := by exact_mod_cast hm
      rw [hvalue, Nat.cast_ofNat, zpow_add₀ (by norm_num)]
      exact mul_lt_mul_of_pos_right hmq (by positivity)
    have hlog : Int.log 2 ((m * 2 ^ e : ℕ) : ℚ) < 53 + e :=
      (Int.lt_zpow_iff_log_lt (by norm_num) hx).mp hsize
    have hunit : max (Int.log 2 ((m * 2 ^ e : ℕ) : ℚ) - 52) (-1074) ≤ e := by omega
    obtain ⟨d, hd⟩ := Int.eq_ofNat_of_zero_le (Int.sub_nonneg.mpr hunit)
    refine nearest_of_multiple (k := m * 2 ^ d) ?_
    have hsplit : (e : ℤ) = d + max (Int.log 2 ((m * 2 ^ e : ℕ) : ℚ) - 52) (-1074) := by omega
    unfold ulp
    calc ((m * 2 ^ e : ℕ) : ℚ) = m * 2 ^ (e : ℤ) := hvalue
      _ = m * (2 ^ (d : ℤ) * 2 ^ max (Int.log 2 ((m * 2 ^ e : ℕ) : ℚ) - 52) (-1074)) := by
        rw [← zpow_add₀ (by norm_num), ← hsplit]
      _ = ((m * 2 ^ d : ℤ) : ℚ) * 2 ^ max (Int.log 2 ((m * 2 ^ e : ℕ) : ℚ) - 52) (-1074) := by
        push_cast
        rw [zpow_natCast, mul_assoc]

/-- From `2 ^ 52` on every result is a natural number with such a significand. -/
theorem nearest_large {x : ℚ} (hx : 2 ^ 52 ≤ x) : ∃ n : ℕ, IsDouble n ∧ nearest x = n := by
  have hpos : 0 < x := lt_of_lt_of_le (by norm_num) hx
  have hlog : 52 ≤ Int.log 2 x := by
    refine (Int.zpow_le_iff_le_log (by norm_num) hpos).mp ?_
    exact_mod_cast hx
  have hmax : max (Int.log 2 x - 52) (-1074) = Int.log 2 x - 52 := max_eq_left (by omega)
  obtain ⟨e, he⟩ := Int.eq_ofNat_of_zero_le (Int.sub_nonneg.mpr hlog)
  have hulp : ulp x = 2 ^ e := by
    unfold ulp
    rw [hmax, he]
    exact zpow_natCast 2 e
  have hbelow : x / 2 ^ e < 2 ^ 53 := by
    have hnext : x < 2 ^ (Int.log 2 x + 1) := by
      exact_mod_cast Int.lt_zpow_succ_log_self (b := 2) (by norm_num) x
    rw [div_lt_iff₀ (by positivity)]
    calc x < 2 ^ (Int.log 2 x + 1) := hnext
      _ = 2 ^ 53 * 2 ^ e := by
        rw [show Int.log 2 x + 1 = (53 : ℤ) + e by omega, zpow_add₀ (by norm_num), zpow_natCast]
        norm_num
  have hnonneg : 0 ≤ x / 2 ^ e := by positivity
  obtain ⟨hlow, hhigh⟩ := abs_le.mp (roundEven_error (x / 2 ^ e))
  have hmost : roundEven (x / 2 ^ e) ≤ 2 ^ 53 := by
    have hq : (roundEven (x / 2 ^ e) : ℚ) < ((2 ^ 53 + 1 : ℤ) : ℚ) := by
      push_cast
      linarith
    have hz : roundEven (x / 2 ^ e) < 2 ^ 53 + 1 := by exact_mod_cast hq
    omega
  have hleast : 0 ≤ roundEven (x / 2 ^ e) := by
    have hq : ((-1 : ℤ) : ℚ) < (roundEven (x / 2 ^ e) : ℚ) := by
      push_cast
      linarith
    have hz : -1 < roundEven (x / 2 ^ e) := by exact_mod_cast hq
    omega
  obtain ⟨m, hm⟩ := Int.eq_ofNat_of_zero_le hleast
  have hresult : nearest x = ((m * 2 ^ e : ℕ) : ℚ) := by
    unfold nearest
    rw [hulp, hm]
    push_cast
    rfl
  have hbound : m ≤ 2 ^ 53 := by omega
  refine ⟨m * 2 ^ e, ?_, hresult⟩
  by_cases htop : m = 2 ^ 53
  · exact ⟨2 ^ 52, e + 1, by norm_num, by rw [htop]; ring⟩
  · exact ⟨m, e, by omega, rfl⟩

theorem IsDouble.of_mul {a b : ℕ} (hb : 0 < b) (h : IsDouble (a * b)) : IsDouble a := by
  obtain ⟨m, e, hm, hproduct⟩ := h
  rcases Nat.eq_zero_or_pos a with rfl | ha
  · exact ⟨0, 0, by norm_num, rfl⟩
  · obtain ⟨t, q, hq, rfl⟩ := Nat.exists_eq_two_pow_mul_odd ha.ne'
    refine ⟨q, t, ?_, Nat.mul_comm _ _⟩
    -- the odd part of the factor divides the significand
    have hcoprime : Nat.Coprime q (2 ^ e) := (Nat.coprime_two_right.mpr hq).pow_right e
    have hdvd : q ∣ m * 2 ^ e := by
      rw [← hproduct]
      exact ⟨2 ^ t * b, by ring⟩
    have hm0 : 0 < m := by
      rcases Nat.eq_zero_or_pos m with rfl | hm0
      · rw [Nat.zero_mul] at hproduct
        exact absurd hproduct (by positivity)
      · exact hm0
    exact lt_of_le_of_lt (Nat.le_of_dvd hm0 (hcoprime.dvd_of_dvd_mul_right hdvd)) hm

/-! ## Two rounded steps -/

theorem ofRat_some {x y : ℚ} : ofRat x = some y ↔ y = nearest x ∧ nearest x < 2 ^ 1024 := by
  unfold ofRat
  by_cases h : nearest x < 2 ^ 1024
  · rw [if_pos h]
    simp [h, eq_comm]
  · rw [if_neg h]
    simp [h]

theorem roundEven_nonneg {x : ℚ} (hx : 0 ≤ x) : 0 ≤ roundEven x := by
  have hlow := (abs_le.mp (roundEven_error x)).1
  have hq : ((-1 : ℤ) : ℚ) < (roundEven x : ℚ) := by
    push_cast
    linarith
  have hz : -1 < roundEven x := by exact_mod_cast hq
  omega

theorem nearest_nonneg {x : ℚ} (hx : 0 ≤ x) : 0 ≤ nearest x := by
  have hquotient : 0 ≤ x / ulp x := div_nonneg hx (ulp_pos x).le
  have hround : (0 : ℚ) ≤ roundEven (x / ulp x) := by exact_mod_cast roundEven_nonneg hquotient
  exact mul_nonneg hround (ulp_pos x).le

/-- **Two steps**: a number is converted and then multiplied by a factor that is
    not too large. The product is nearer to the exact one than a half. -/
theorem scaled_error {x s : ℚ} (hx : 0 ≤ x) (hs : 0 ≤ s) (hs' : s ≤ 2 ^ 30)
    (h : x * s ≤ 2 ^ 50) : |nearest (nearest x * s) - x * s| < 1 / 2 := by
  have hv : 0 ≤ nearest x * s := mul_nonneg (nearest_nonneg hx) hs
  have hfirst : |nearest x * s - x * s| ≤ 1 / 8 + 1 / 2 ^ 41 := by
    calc |nearest x * s - x * s| = |nearest x - x| * s := by
          rw [← sub_mul, abs_mul, abs_of_nonneg hs]
      _ ≤ (x / 2 ^ 53 + 1 / 2 ^ 71) * s := mul_le_mul_of_nonneg_right (nearest_error hx) hs
      _ = x * s / 2 ^ 53 + s / 2 ^ 71 := by ring
      _ ≤ 2 ^ 50 / 2 ^ 53 + 2 ^ 30 / 2 ^ 71 := by gcongr
      _ = 1 / 8 + 1 / 2 ^ 41 := by norm_num
  have hproduct : nearest x * s ≤ 2 ^ 50 + 1 := by
    have hhigh := (abs_le.mp hfirst).2
    have hslack : (1 : ℚ) / 8 + 1 / 2 ^ 41 ≤ 1 := by norm_num
    linarith
  have hsecond : |nearest (nearest x * s) - nearest x * s| ≤ 1 / 8 + 1 / 2 ^ 52 := by
    calc |nearest (nearest x * s) - nearest x * s|
        ≤ nearest x * s / 2 ^ 53 + 1 / 2 ^ 71 := nearest_error hv
      _ ≤ (2 ^ 50 + 1) / 2 ^ 53 + 1 / 2 ^ 71 := by gcongr
      _ ≤ 1 / 8 + 1 / 2 ^ 52 := by norm_num
  calc |nearest (nearest x * s) - x * s|
      ≤ |nearest (nearest x * s) - nearest x * s| + |nearest x * s - x * s| := abs_sub_le _ _ _
    _ ≤ (1 / 8 + 1 / 2 ^ 52) + (1 / 8 + 1 / 2 ^ 41) := add_le_add hsecond hfirst
    _ < 1 / 2 := by norm_num

end Framework.Binary64

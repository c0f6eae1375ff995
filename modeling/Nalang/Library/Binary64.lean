import Mathlib.Algebra.Order.Floor.Ring
import Mathlib.Data.Int.Log
import Mathlib.Data.Rat.Floor
import Mathlib.Tactic.Linarith
import Mathlib.Tactic.NormNum
import Mathlib.Tactic.Positivity
import Mathlib.Tactic.Ring

/-!
# Numbers of 64 bits

A finite number is given by its value, so that the two zeros are one. A sum is rounded to the
nearest number, to the one with an even mantissa if there are two.
-/

namespace Binary64

inductive Number
  | finite (q : ℚ)
  | infinity (negative : Bool)
  | nan
  deriving DecidableEq

def place (q : ℚ) : ℤ := max (Int.log 2 |q| - 52) (-1074)

def nearest (x : ℚ) : ℤ :=
  let below := ⌊x⌋
  if x - below < 1 / 2 ∨ (x - below = 1 / 2 ∧ below % 2 = 0) then below else below + 1

def rounded (q : ℚ) : Number :=
  let unit := (2 : ℚ) ^ place q
  let value := nearest (q / unit) * unit
  if |value| < 2 ^ 1024 then .finite value else .infinity (value < 0)

namespace Number

def add : Number → Number → Number
  | .finite x, .finite y => rounded (x + y)
  | .nan, _ => .nan
  | _, .nan => .nan
  | .infinity a, .infinity b => if a = b then .infinity a else .nan
  | .infinity a, .finite _ => .infinity a
  | .finite _, .infinity b => .infinity b

def neg : Number → Number
  | .finite x => .finite (-x)
  | .infinity a => .infinity (!a)
  | .nan => .nan

def sub (x y : Number) : Number := x.add y.neg

def nonpos : Number → Bool
  | .finite x => x ≤ 0
  | .infinity negative => negative
  | .nan => false

end Number

/-! ### Integers -/

theorem nearest_intCast (k : ℤ) : nearest (k : ℚ) = k := by
  simp [nearest]

theorem rounded_of_multiple {q : ℚ} {k : ℤ} (hk : q = k * 2 ^ place q) (hsmall : |q| < 2 ^ 1024) :
    rounded q = .finite q := by
  have hunit : (2 : ℚ) ^ place q ≠ 0 := zpow_ne_zero _ two_ne_zero
  have hquot : q / 2 ^ place q = k := by
    rw [div_eq_iff hunit]
    exact hk
  simp only [rounded]
  rw [hquot, nearest_intCast, ← hk, if_pos hsmall]

theorem small_of_le {q : ℚ} {n : ℕ} (hn : n < 1024) (hq : |q| ≤ 2 ^ n) : |q| < 2 ^ 1024 :=
  lt_of_le_of_lt hq (pow_lt_pow_right₀ one_lt_two hn)

theorem place_nonpos {q : ℚ} (hq : |q| < 2 ^ 53) : place q ≤ 0 := by
  unfold place
  rcases (abs_nonneg q).eq_or_lt with hzero | hpos
  · rw [← hzero, Int.log_zero_right]
    norm_num
  · have hlog : Int.log 2 |q| < 53 :=
      (Int.lt_zpow_iff_log_lt one_lt_two hpos).mp (by exact_mod_cast hq)
    omega

theorem place_of_bounds {q : ℚ} (hlow : 2 ^ 53 ≤ |q|) (hhigh : |q| < 2 ^ 54) : place q = 1 := by
  have hpos : 0 < |q| := lt_of_lt_of_le (by positivity) hlow
  have hle : 53 ≤ Int.log 2 |q| :=
    (Int.zpow_le_iff_le_log one_lt_two hpos).mp (by exact_mod_cast hlow)
  have hlt : Int.log 2 |q| < 54 :=
    (Int.lt_zpow_iff_log_lt one_lt_two hpos).mp (by exact_mod_cast hhigh)
  unfold place
  omega

theorem rounded_intCast_of_lt {n : ℤ} (hn : |(n : ℚ)| < 2 ^ 53) : rounded n = .finite n := by
  have hplace := place_nonpos hn
  obtain ⟨m, hm⟩ := Int.eq_ofNat_of_zero_le (neg_nonneg.mpr hplace)
  have hexp : place (n : ℚ) = -(m : ℤ) := by omega
  refine rounded_of_multiple (k := n * 2 ^ m) ?_ (small_of_le (by norm_num) hn.le)
  rw [hexp, zpow_neg, zpow_natCast]
  push_cast
  rw [mul_assoc, mul_inv_cancel₀ (by positivity), mul_one]

def maxExact : ℤ := 2 ^ 53

theorem maxExact_pos : 0 < maxExact := by norm_num [maxExact]

theorem rounded_even {k : ℤ} (hlow : 2 ^ 53 ≤ |((2 * k : ℤ) : ℚ)|)
    (hhigh : |((2 * k : ℤ) : ℚ)| < 2 ^ 54) : rounded (2 * k : ℤ) = .finite (2 * k : ℤ) := by
  refine rounded_of_multiple (k := k) ?_ (small_of_le (by norm_num) hhigh.le)
  rw [place_of_bounds hlow hhigh, zpow_one]
  push_cast
  ring

theorem rounded_intCast {n : ℤ} (hn : |n| ≤ maxExact) : rounded n = .finite n := by
  rcases hn.lt_or_eq with hlt | heq
  · have hcast : |(n : ℚ)| < 2 ^ 53 := by
      rw [← Int.cast_abs]
      exact_mod_cast hlt
    exact rounded_intCast_of_lt hcast
  · obtain ⟨k, rfl⟩ : ∃ k : ℤ, n = 2 * k := by
      rcases abs_choice n with h | h
      · exact ⟨2 ^ 52, by rw [← h, heq]; rfl⟩
      · exact ⟨-2 ^ 52, by rw [← neg_eq_iff_eq_neg.mpr h, heq]; rfl⟩
    have hcast : |((2 * k : ℤ) : ℚ)| = 2 ^ 53 := by
      rw [← Int.cast_abs, heq]
      norm_num [maxExact]
    refine rounded_even hcast.ge ?_
    rw [hcast]
    norm_num

theorem rounded_succ_maxExact : rounded (maxExact + 1 : ℤ) = .finite maxExact := by
  have hplace : place ((maxExact + 1 : ℤ) : ℚ) = 1 := by
    apply place_of_bounds <;> norm_num [maxExact]
  have hquot : ((maxExact + 1 : ℤ) : ℚ) / 2 ^ (1 : ℤ) = 2 ^ 52 + 1 / 2 := by
    norm_num [maxExact]
  have hfloor : ⌊(2 : ℚ) ^ 52 + 1 / 2⌋ = 2 ^ 52 := by
    rw [Int.floor_eq_iff]
    norm_num
  have hnearest : nearest (2 ^ 52 + 1 / 2) = 2 ^ 52 := by
    unfold nearest
    rw [hfloor]
    norm_num
  have hvalue : ((2 ^ 52 : ℤ) : ℚ) * 2 ^ (1 : ℤ) = (maxExact : ℚ) := by norm_num [maxExact]
  have hbound : |(maxExact : ℚ)| ≤ 2 ^ 53 := by norm_num [maxExact]
  have hsmall : |(maxExact : ℚ)| < 2 ^ 1024 := small_of_le (by norm_num) hbound
  simp only [rounded, hplace, hquot, hnearest, hvalue]
  rw [if_pos hsmall]

theorem rounded_maxExact_add_two : rounded (maxExact + 2 : ℤ) = .finite (maxExact + 2 : ℤ) := by
  have heven : maxExact + 2 = 2 * (2 ^ 52 + 1) := by norm_num [maxExact]
  rw [heven]
  apply rounded_even <;> norm_num

theorem rounded_upto {n : ℤ} (hlow : -1 ≤ n) (hhigh : n ≤ maxExact + 2) :
    ∃ m : ℤ, rounded n = .finite m ∧
      (n ≠ maxExact + 1 ∧ m = n ∨ n = maxExact + 1 ∧ m = maxExact) := by
  have hmax := maxExact_pos
  by_cases hexact : n ≤ maxExact
  · refine ⟨n, rounded_intCast ?_, .inl ⟨by omega, rfl⟩⟩
    rw [abs_le]
    constructor <;> omega
  by_cases hsucc : n = maxExact + 1
  · exact ⟨maxExact, hsucc ▸ rounded_succ_maxExact, .inr ⟨hsucc, rfl⟩⟩
  · have hlast : n = maxExact + 2 := by omega
    exact ⟨n, hlast ▸ rounded_maxExact_add_two, .inl ⟨hsucc, rfl⟩⟩

end Binary64

/-
# The shortest decimal of a number

A finite number is the one nearest to all reals of an interval around it. Its shortest decimal
lies in this interval and has no zero at its end (`Decimal.shortest_spec`). It is searched on
the grids of the powers of ten, beginning with the power of the leading digit. Sixteen steps
further down a unit of the grid is shorter than the interval, so one of the two neighbours of
the number lies in it (`Interval.contains_neighbour`) and the search cannot fail.

The leading digit is found from the power of two by a multiplication with 1233 / 4096 or
1234 / 4096, which enclose the logarithm of two closely enough to be at most one too small
(`guess_spec`). The definitions compare whole numbers over a common denominator, which are read
as rationals here (`units_le_iff`).

Key definitions: `Digits.toRat`, `Interval.Contains`, `Interval.units`.
Key theorems: `Interval.contains_neighbour`, `Interval.search_spec`, `Interval.leading_spec`,
`guess_spec`, `shortest_spec`.
-/
import Mathlib
import ActionTree.Decimal.Shortest

namespace ActionTree
namespace Decimal

/-! ### Grids of decimals -/

theorem pow_toNat {b : ℚ} (hb : b ≠ 0) (j : Int) : b ^ j.toNat = b ^ j * b ^ (-j).toNat := by
  rw [← zpow_natCast, ← zpow_natCast, ← zpow_add₀ hb]
  congr 1
  omega

section

variable {V D : Nat} (hD : 0 < D) (count : Nat) (j : Int)

theorem cast_units : ((count * Nat.pow 10 j.toNat * D : Nat) : ℚ) =
    count * 10 ^ j * D * 10 ^ (-j).toNat := by
  rw [Nat.cast_mul, Nat.cast_mul, Nat.pow_eq, Nat.cast_pow, Nat.cast_ofNat,
    pow_toNat (by norm_num)]
  ring

theorem cast_scaled : ((V * Nat.pow 10 (-j).toNat : Nat) : ℚ) = V * 10 ^ (-j).toNat := by
  rw [Nat.cast_mul, Nat.pow_eq, Nat.cast_pow, Nat.cast_ofNat]

include hD

/-- So many units of a grid are compared with a fraction in whole numbers. -/
theorem units_le_iff : count * Nat.pow 10 j.toNat * D ≤ V * Nat.pow 10 (-j).toNat ↔
    (count : ℚ) * 10 ^ j ≤ V / D := by
  have hpos : (0 : ℚ) < 10 ^ (-j).toNat := by positivity
  have hden : (0 : ℚ) < D := by exact_mod_cast hD
  rw [← Nat.cast_le (α := ℚ), cast_units, cast_scaled, mul_le_mul_iff_left₀ hpos, le_div_iff₀ hden]

theorem le_units_iff : V * Nat.pow 10 (-j).toNat ≤ count * Nat.pow 10 j.toNat * D ↔
    (V : ℚ) / D ≤ count * 10 ^ j := by
  have hpos : (0 : ℚ) < 10 ^ (-j).toNat := by positivity
  have hden : (0 : ℚ) < D := by exact_mod_cast hD
  rw [← Nat.cast_le (α := ℚ), cast_units, cast_scaled, mul_le_mul_iff_left₀ hpos, div_le_iff₀ hden]

end

/-- The number that a decimal denotes. -/
def Digits.toRat (d : Digits) : ℚ :=
  d.digits * 10 ^ d.exponent

namespace Interval

/-- A number lies between the ends of an interval, or on one of them if they belong to it. -/
def Contains (interval : Interval) (x : ℚ) : Prop :=
  if interval.closed then
    (interval.low : ℚ) / interval.denominator ≤ x ∧ x ≤ (interval.high : ℚ) / interval.denominator
  else
    (interval.low : ℚ) / interval.denominator < x ∧ x < (interval.high : ℚ) / interval.denominator

theorem contains_units_iff {interval : Interval} (hD : 0 < interval.denominator) (count : Nat)
    (j : Int) : interval.contains count (Nat.pow 10 j.toNat) (Nat.pow 10 (-j).toNat) = true ↔
      interval.Contains (count * 10 ^ j) := by
  have hlow := le_units_iff (V := interval.low) hD count j
  have hhigh := units_le_iff (V := interval.high) hD count j
  have hlow' := units_le_iff (V := interval.low) hD count j
  have hhigh' := le_units_iff (V := interval.high) hD count j
  unfold contains Contains
  cases interval.closed with
  | true =>
    simp only [if_true, Bool.and_eq_true, decide_eq_true_eq]
    exact and_congr hlow hhigh
  | false =>
    simp only [Bool.false_eq_true, if_false, Bool.and_eq_true, decide_eq_true_eq]
    exact and_congr (lt_iff_lt_of_le_iff_le hlow') (lt_iff_lt_of_le_iff_le hhigh')

/-! ### The reals that round to a number -/

section

variable {m : Nat} {e : Int}

theorem denominator_pos (m : Nat) (e : Int) : 0 < (around m e).denominator :=
  Nat.mul_pos (by decide) (Nat.two_pow_pos _)

theorem quarters (count : Nat) (e : Int) : ((count * Nat.pow 2 e.toNat : Nat) : ℚ) /
    ((4 * Nat.pow 2 (-e).toNat : Nat) : ℚ) = count / 4 * 2 ^ e := by
  rw [Nat.cast_mul, Nat.cast_mul, Nat.pow_eq, Nat.pow_eq, Nat.cast_pow, Nat.cast_pow,
    Nat.cast_ofNat, Nat.cast_ofNat, pow_toNat (by norm_num)]
  field_simp

theorem value_around (m : Nat) (e : Int) :
    ((around m e).value : ℚ) / (around m e).denominator = m * 2 ^ e := by
  have hcount : ((4 * m : Nat) : ℚ) / 4 = m := by
    push_cast
    ring
  rw [← hcount]
  exact quarters (4 * m) e

theorem high_around (m : Nat) (e : Int) :
    ((around m e).high : ℚ) / (around m e).denominator = (m + 1 / 2) * 2 ^ e := by
  have hcount : ((4 * m + 2 : Nat) : ℚ) / 4 = m + 1 / 2 := by
    push_cast
    ring
  rw [← hcount]
  exact quarters (4 * m + 2) e

/-- The interval begins halfway to the number below, which is half as far from a power of two. -/
theorem low_around (hm : 0 < m) (e : Int) :
    ((around m e).low : ℚ) / (around m e).denominator = (m - 1 / 2) * 2 ^ e ∨
    m = 0x10000000000000 ∧
      ((around m e).low : ℚ) / (around m e).denominator = (m - 1 / 4) * 2 ^ e := by
  by_cases h : m = 0x10000000000000 ∧ e ≠ -1074
  · have hcount : ((4 * m - 1 : Nat) : ℚ) / 4 = m - 1 / 4 := by
      rw [Nat.cast_sub (by omega)]
      push_cast
      ring
    refine .inr ⟨h.1, ?_⟩
    rw [← hcount, ← quarters]
    simp [around, h.1, h.2]
  · have hcount : ((4 * m - 2 : Nat) : ℚ) / 4 = m - 1 / 2 := by
      rw [Nat.cast_sub (by omega)]
      push_cast
      ring
    refine .inl ?_
    rw [← hcount, ← quarters]
    have hbelow : (decide (m = 0x10000000000000) && e != -1074) = false := by
      simpa [not_and_or] using h
    simp [around, hbelow]

/-- All numbers that round to a positive number are positive. -/
theorem Contains.pos (hm : 0 < m) {x : ℚ} (h : (around m e).Contains x) : 0 < x := by
  have hpow : (0 : ℚ) < 2 ^ e := by positivity
  have hone : (1 : ℚ) ≤ m := by exact_mod_cast hm
  have hlow : 0 < ((around m e).low : ℚ) / (around m e).denominator := by
    rcases low_around hm e with hlow | ⟨-, hlow⟩
    · rw [hlow]
      exact mul_pos (by linarith) hpow
    · rw [hlow]
      exact mul_pos (by linarith) hpow
  unfold Contains at h
  split at h
  · exact lt_of_lt_of_le hlow h.1
  · exact hlow.trans h.1

/-- What is not in the interval is below or above it. -/
theorem outside {interval : Interval} {x : ℚ} (h : ¬ interval.Contains x) :
    x ≤ (interval.low : ℚ) / interval.denominator ∨
    (interval.high : ℚ) / interval.denominator ≤ x := by
  unfold Contains at h
  split at h
  · rcases not_and_or.1 h with h | h
    · exact .inl (le_of_not_ge h)
    · exact .inr (le_of_not_ge h)
  · rcases not_and_or.1 h with h | h
    · exact .inl (le_of_not_gt h)
    · exact .inr (le_of_not_gt h)

/-- How many whole units of a grid go into the number. -/
def units (interval : Interval) (j : Int) : Nat :=
  interval.value * Nat.pow 10 (-j).toNat / (Nat.pow 10 j.toNat * interval.denominator)

theorem units_le (m : Nat) (e j : Int) : ((around m e).units j : ℚ) * 10 ^ j ≤ m * 2 ^ e := by
  rw [← value_around, ← units_le_iff (denominator_pos m e), Nat.mul_assoc]
  exact Nat.div_mul_le_self _ _

theorem lt_units (m : Nat) (e j : Int) : (m * 2 ^ e : ℚ) < ((around m e).units j + 1) * 10 ^ j := by
  have hunit : 0 < Nat.pow 10 j.toNat * (around m e).denominator :=
    Nat.mul_pos (Nat.pow_pos (by decide)) (denominator_pos m e)
  have h := (lt_iff_lt_of_le_iff_le
    (units_le_iff (V := (around m e).value) (denominator_pos m e) ((around m e).units j + 1) j)).1
  rw [value_around, Nat.cast_add, Nat.cast_one] at h
  refine h ?_
  rw [Nat.mul_assoc]
  exact Nat.lt_mul_of_div_lt (Nat.lt_succ_self _) hunit

theorem units_lt {j : Int} (h : (m * 2 ^ e : ℚ) < 10 ^ (j + 17)) :
    (around m e).units j < 10 ^ 17 := by
  have hpow : (0 : ℚ) < 10 ^ j := by positivity
  have hunits : ((around m e).units j : ℚ) * 10 ^ j < 10 ^ 17 * 10 ^ j := calc
    _ ≤ (m * 2 ^ e : ℚ) := units_le m e j
    _ < 10 ^ (j + 17) := h
    _ = 10 ^ 17 * 10 ^ j := by
      rw [zpow_add₀ (by norm_num), mul_comm]
      rfl
  exact_mod_cast lt_of_mul_lt_mul_right hunits hpow.le

/-- A decimal that is found on a grid is in the interval and a neighbour of the number. -/
theorem onGrid?_eq_some {tie : Tie} {j : Int} {count : Nat}
    (h : (around m e).onGrid? tie j = some count) :
    (around m e).Contains (count * 10 ^ j) ∧ count ≤ (around m e).units j + 1 := by
  have hbelow := (contains_units_iff (denominator_pos m e) ((around m e).units j) j).1
  have habove := (contains_units_iff (denominator_pos m e) ((around m e).units j + 1) j).1
  rw [Nat.cast_add, Nat.cast_one] at habove
  simp only [onGrid?] at h
  split at h
  · cases h
  · rename_i hin _
    obtain rfl := Option.some.inj h
    exact ⟨hbelow hin, Nat.le_succ _⟩
  · rename_i _ hin
    obtain rfl := Option.some.inj h
    exact ⟨by exact_mod_cast habove hin, le_rfl⟩
  · rename_i hin hin'
    have hcount : count = (around m e).units j ∨ count = (around m e).units j + 1 := by
      split at h
      · exact .inl (Option.some.inj h).symm
      · split at h
        · exact .inr (Option.some.inj h).symm
        · cases tie with
          | even =>
            have heven : (around m e).units j + (around m e).units j % 2 = count :=
              Option.some.inj h
            omega
          | up => exact .inr (Option.some.inj h).symm
    rcases hcount with rfl | rfl
    · exact ⟨hbelow hin, Nat.le_succ _⟩
    · exact ⟨by exact_mod_cast habove hin', le_rfl⟩

/-- **A grid that is fine enough has a decimal in the interval**: one of the neighbours of the
number, since a unit of the grid is shorter than the interval. -/
theorem contains_neighbour {j : Int} (hm : 0 < m) (hlt : m < 0x20000000000000)
    (h : (10 : ℚ) ^ (j + 16) ≤ m * 2 ^ e) :
    (around m e).Contains ((around m e).units j * 10 ^ j) ∨
    (around m e).Contains (((around m e).units j + 1) * 10 ^ j) := by
  have hbelow := units_le m e j
  have habove := lt_units m e j
  have hpow : (0 : ℚ) < 2 ^ e := by positivity
  have hunit : (10 : ℚ) ^ 16 * 10 ^ j ≤ m * 2 ^ e := by
    rw [zpow_add₀ (by norm_num)] at h
    calc
      (10 : ℚ) ^ 16 * 10 ^ j = 10 ^ j * 10 ^ (16 : Int) := by
        rw [mul_comm]
        rfl
      _ ≤ m * 2 ^ e := h
  have hmantissa : (m : ℚ) * 2 ^ e ≤ 9007199254740992 * 2 ^ e := by
    have hm' : (m : ℚ) ≤ 9007199254740992 := by exact_mod_cast hlt.le
    exact mul_le_mul_of_nonneg_right hm' hpow.le
  have hstep : (((around m e).units j : ℚ) + 1) * 10 ^ j = (around m e).units j * 10 ^ j + 10 ^ j :=
    by ring
  by_contra hnone
  obtain ⟨hlower, hupper⟩ := not_or.1 hnone
  have hlow := low_around hm e
  have hlower := outside hlower
  have hupper := outside hupper
  rw [high_around] at hlower hupper
  rw [hstep] at hupper habove
  -- Both neighbours are outside, so the whole interval is shorter than a unit.
  rcases hlower with hlower | hlower
  · rcases hupper with hupper | hupper
    · rcases hlow with hlow | ⟨-, hlow⟩ <;> linarith
    · rcases hlow with hlow | ⟨rfl, hlow⟩
      · linarith
      · push_cast at *
        linarith
  · linarith

theorem onGrid?_ne_none (tie : Tie) {j : Int} (hm : 0 < m) (hlt : m < 0x20000000000000)
    (h : (10 : ℚ) ^ (j + 16) ≤ m * 2 ^ e) : (around m e).onGrid? tie j ≠ none := by
  have hbelow := contains_units_iff (denominator_pos m e) ((around m e).units j) j
  have habove := contains_units_iff (denominator_pos m e) ((around m e).units j + 1) j
  rw [Nat.cast_add, Nat.cast_one] at habove
  have hneighbour := contains_neighbour hm hlt h
  rw [← hbelow, ← habove] at hneighbour
  intro hnone
  simp only [onGrid?] at hnone
  split at hnone
  · rename_i hout hout'
    rcases hneighbour with hin | hin
    · exact Bool.false_ne_true (hout.symm.trans hin)
    · exact Bool.false_ne_true (hout'.symm.trans hin)
  · cases hnone
  · cases hnone
  · split at hnone
    · cases hnone
    · split at hnone
      · cases hnone
      · cases tie <;> cases hnone

/-- **The search finds a decimal in the interval**, with seventeen digits at most or with a one and
seventeen zeros. -/
theorem search_spec (tie : Tie) (fuel : Nat) {j : Int} (hm : 0 < m) (hlt : m < 0x20000000000000)
    (hlo : (10 : ℚ) ^ (j - fuel + 16) ≤ m * 2 ^ e)
    (hhi : (m * 2 ^ e : ℚ) < 10 ^ (j - fuel + 17)) :
    (around m e).Contains ((around m e).search tie fuel j).toRat ∧
      ((around m e).search tie fuel j).digits ≤ 10 ^ 17 := by
  induction fuel generalizing j with
  | zero =>
    rw [Nat.cast_zero, sub_zero] at hlo hhi
    obtain ⟨count, hcount⟩ := Option.ne_none_iff_exists'.1 (onGrid?_ne_none tie hm hlt hlo)
    obtain ⟨hin, hunits⟩ := onGrid?_eq_some hcount
    rw [search, hcount]
    exact ⟨hin, hunits.trans (units_lt hhi)⟩
  | succ fuel ih =>
    rw [search]
    cases hcount : (around m e).onGrid? tie j with
    | some count =>
      obtain ⟨hin, hunits⟩ := onGrid?_eq_some hcount
      have hcoarse : (10 : ℚ) ^ (j - (fuel + 1 : Nat) + 17) ≤ 10 ^ (j + 17) :=
        zpow_le_zpow_right₀ (by norm_num) (by omega)
      exact ⟨hin, hunits.trans (units_lt (hhi.trans_le hcoarse))⟩
    | none =>
      have hnext : j - 1 - (fuel : Int) = j - (fuel + 1 : Nat) := by
        push_cast
        ring
      rw [← hnext] at hlo hhi
      exact ih hlo hhi

/-- **The leading digit is found** from a guess that is at most one too small. -/
theorem leading_spec {guess : Int} (hlo : (10 : ℚ) ^ guess ≤ m * 2 ^ e)
    (hhi : (m * 2 ^ e : ℚ) < 10 ^ (guess + 2)) :
    (10 : ℚ) ^ (around m e).leading guess ≤ m * 2 ^ e ∧
      (m * 2 ^ e : ℚ) < 10 ^ ((around m e).leading guess + 1) := by
  have hnext := units_le_iff (V := (around m e).value) (denominator_pos m e) 1 (guess + 1)
  rw [value_around, Nat.one_mul, Nat.cast_one, one_mul] at hnext
  have hleading : (around m e).leading guess =
      if (10 : ℚ) ^ (guess + 1) ≤ m * 2 ^ e then guess + 1 else guess := by
    unfold leading
    simp only [hnext]
  rw [hleading]
  by_cases h : (10 : ℚ) ^ (guess + 1) ≤ m * 2 ^ e
  · rw [if_pos h]
    exact ⟨h, by rwa [add_assoc]⟩
  · rw [if_neg h]
    exact ⟨hlo, not_le.1 h⟩

end

end Interval

/-! ### The first guess -/

theorem zpow_le_of_pow_le {a b i j : Nat} (h : Nat.pow a i ≤ Nat.pow b j) :
    (a : ℚ) ^ (i : Int) ≤ (b : ℚ) ^ (j : Int) := by
  rw [zpow_natCast, zpow_natCast, ← Nat.cast_pow, ← Nat.cast_pow]
  exact Nat.cast_le.2 h

theorem ten_le_two : (10 : ℚ) ^ (1233 : Int) ≤ 2 ^ (4096 : Int) :=
  zpow_le_of_pow_le (a := 10) (b := 2) (i := 1233) (j := 4096) (by decide +kernel)

theorem two_le_ten : (2 : ℚ) ^ (4096 : Int) ≤ 10 ^ (1234 : Int) :=
  zpow_le_of_pow_le (a := 2) (b := 10) (i := 4096) (j := 1234) (by decide +kernel)

theorem zpow_le_zpow_of_nonpos {a b : ℚ} (ha : 0 < a) (h : a ≤ b) {n : Int} (hn : n ≤ 0) :
    b ^ n ≤ a ^ n := by
  have hneg : a ^ (-n) ≤ b ^ (-n) := zpow_le_zpow_left₀ (by omega) ha.le h
  rw [zpow_neg, zpow_neg] at hneg
  exact (inv_le_inv₀ (zpow_pos ha n) (zpow_pos (ha.trans_le h) n)).1 hneg

theorem zpow_le_of_mul {a b : ℚ} (hb : 0 < b) {i j : Int} (h : a ^ (4096 * i) ≤ b ^ (4096 * j)) :
    a ^ i ≤ b ^ j := by
  have hroot : (a ^ i) ^ 4096 ≤ (b ^ j) ^ 4096 := by
    rw [← zpow_natCast, ← zpow_natCast, ← zpow_mul, ← zpow_mul, mul_comm i, mul_comm j]
    exact h
  exact le_of_pow_le_pow_left₀ (by decide) (zpow_pos hb j).le hroot

/-- **The first guess is at most one too small**: the two fractions enclose the logarithm of two
closely enough for all exponents that occur. -/
theorem guess_spec {b : Int} (hlo : -2047 ≤ b) (hhi : b ≤ 2047) {guess : Int}
    (hguess : guess = if 0 ≤ b then b * 1233 / 4096 else b * 1234 / 4096) :
    (10 : ℚ) ^ guess ≤ 2 ^ b ∧ (2 : ℚ) ^ (b + 1) ≤ 10 ^ (guess + 2) := by
  have hmono {i j : Int} (h : i ≤ j) : (10 : ℚ) ^ i ≤ 10 ^ j := zpow_le_zpow_right₀ (by norm_num) h
  refine ⟨zpow_le_of_mul (by norm_num) ?_, zpow_le_of_mul (by norm_num) ?_⟩
  · by_cases hb : 0 ≤ b
    · rw [if_pos hb] at hguess
      calc
        (10 : ℚ) ^ (4096 * guess) ≤ 10 ^ (1233 * b) := hmono (by omega)
        _ = (10 ^ (1233 : Int)) ^ b := zpow_mul _ _ _
        _ ≤ (2 ^ (4096 : Int)) ^ b := zpow_le_zpow_left₀ hb (by positivity) ten_le_two
        _ = 2 ^ (4096 * b) := (zpow_mul _ _ _).symm
    · rw [if_neg hb] at hguess
      calc
        (10 : ℚ) ^ (4096 * guess) ≤ 10 ^ (1234 * b) := hmono (by omega)
        _ = (10 ^ (1234 : Int)) ^ b := zpow_mul _ _ _
        _ ≤ (2 ^ (4096 : Int)) ^ b :=
          zpow_le_zpow_of_nonpos (by positivity) two_le_ten (by omega)
        _ = 2 ^ (4096 * b) := (zpow_mul _ _ _).symm
  · by_cases hb : 0 ≤ b
    · rw [if_pos hb] at hguess
      calc
        (2 : ℚ) ^ (4096 * (b + 1)) = (2 ^ (4096 : Int)) ^ (b + 1) := zpow_mul _ _ _
        _ ≤ (10 ^ (1234 : Int)) ^ (b + 1) :=
          zpow_le_zpow_left₀ (by omega) (by positivity) two_le_ten
        _ = 10 ^ (1234 * (b + 1)) := (zpow_mul _ _ _).symm
        _ ≤ 10 ^ (4096 * (guess + 2)) := hmono (by omega)
    · rw [if_neg hb] at hguess
      calc
        (2 : ℚ) ^ (4096 * (b + 1)) = (2 ^ (4096 : Int)) ^ (b + 1) := zpow_mul _ _ _
        _ ≤ (10 ^ (1233 : Int)) ^ (b + 1) :=
          zpow_le_zpow_of_nonpos (by positivity) ten_le_two (by omega)
        _ = 10 ^ (1233 * (b + 1)) := (zpow_mul _ _ _).symm
        _ ≤ 10 ^ (4096 * (guess + 2)) := hmono (by omega)

/-! ### The shortest decimal -/

namespace Digits

variable {d : Digits} {fuel : Nat}

theorem toRat_normalize (d : Digits) (fuel : Nat) : (d.normalize fuel).toRat = d.toRat := by
  induction fuel generalizing d with
  | zero => rfl
  | succ fuel ih =>
    rw [normalize]
    split
    · rename_i h
      have hdiv : 10 ∣ d.digits := by
        simp only [Bool.and_eq_true, decide_eq_true_eq] at h
        exact Nat.dvd_of_mod_eq_zero h.2
      rw [ih, toRat, toRat, Nat.cast_div hdiv (by norm_num), zpow_add_one₀ (by norm_num)]
      push_cast
      field_simp
    · rfl

/-- No zero is left at the end of digits that are not too many. -/
theorem normalize_mod_ne_zero (hpos : 0 < d.digits) (hlt : d.digits < 10 ^ (fuel + 1)) :
    (d.normalize fuel).digits % 10 ≠ 0 := by
  induction fuel generalizing d with
  | zero =>
    rw [normalize, Nat.mod_eq_of_lt (by simpa using hlt)]
    omega
  | succ fuel ih =>
    rw [normalize]
    split
    · rename_i h
      have hmod : d.digits % 10 = 0 := by
        simp only [Bool.and_eq_true, decide_eq_true_eq] at h
        exact h.2
      refine ih (show 0 < d.digits / 10 by omega) (show d.digits / 10 < 10 ^ (fuel + 1) from ?_)
      rw [Nat.pow_succ] at hlt
      omega
    · rename_i h
      simp only [Bool.and_eq_true, decide_eq_true_eq, bne_iff_ne, not_and] at h
      exact h (by omega)

end Digits

/-- **The shortest decimal rounds to the number**, and no zero stands at its end. -/
theorem shortest_spec (tie : Tie) {m : Nat} {e : Int} (hm : 0 < m) (hlt : m < 0x20000000000000)
    (hlo : -1074 ≤ e) (hhi : e ≤ 971) :
    (Interval.around m e).Contains (shortest tie m e).toRat ∧
      (shortest tie m e).digits % 10 ≠ 0 := by
  have hlog : m.log2 < 53 := (Nat.log2_lt (by omega)).2 hlt
  obtain ⟨guess, hguess⟩ : ∃ guess : Int, guess =
      if 0 ≤ e + m.log2 then (e + m.log2) * 1233 / 4096 else (e + m.log2) * 1234 / 4096 := ⟨_, rfl⟩
  obtain ⟨hguesslo, hguesshi⟩ := guess_spec (by omega) (by omega) hguess
  have hpow : (0 : ℚ) < 2 ^ e := by positivity
  have hbelow : (2 : ℚ) ^ (e + m.log2) ≤ m * 2 ^ e := by
    have hmantissa : ((2 ^ m.log2 : Nat) : ℚ) ≤ m := Nat.cast_le.2 (Nat.log2_self_le (by omega))
    rw [zpow_add₀ (by norm_num), mul_comm, zpow_natCast]
    push_cast at hmantissa
    exact mul_le_mul_of_nonneg_right hmantissa hpow.le
  have habove : (m * 2 ^ e : ℚ) < 2 ^ (e + m.log2 + 1) := by
    have hmantissa : (m : ℚ) < ((2 ^ (m.log2 + 1) : Nat) : ℚ) := Nat.cast_lt.2 Nat.lt_log2_self
    rw [add_assoc, zpow_add₀ (by norm_num), mul_comm]
    push_cast at hmantissa
    rw [← zpow_natCast] at hmantissa
    exact mul_lt_mul_of_pos_left (by exact_mod_cast hmantissa) hpow
  obtain ⟨hleadinglo, hleadinghi⟩ := Interval.leading_spec (m := m) (e := e)
    (hguesslo.trans hbelow) (habove.trans_le hguesshi)
  generalize hleading : (Interval.around m e).leading guess = leading at *
  have hshortest : shortest tie m e =
      ((Interval.around m e).search tie 16 leading).normalize 18 := by
    rw [shortest, ← hleading, hguess]
  have hlast : leading - (16 : Nat) + 16 = leading := by omega
  have hlast' : leading - (16 : Nat) + 17 = leading + 1 := by omega
  obtain ⟨hcontains, hdigits⟩ := Interval.search_spec tie 16 hm hlt (by rwa [hlast])
    (by rwa [hlast'])
  have hpos : 0 < ((Interval.around m e).search tie 16 leading).digits := by
    refine Nat.pos_of_ne_zero fun hzero => (hcontains.pos hm).ne' ?_
    rw [Digits.toRat, hzero, Nat.cast_zero, zero_mul]
  rw [hshortest, Digits.toRat_normalize]
  exact ⟨hcontains, Digits.normalize_mod_ne_zero hpos (by omega)⟩

end Decimal
end ActionTree

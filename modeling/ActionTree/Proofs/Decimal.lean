/-
# The digits of whole numbers

A whole number with at most 53 bits is its own binary64 number, so nothing is lost on the way
from its digits to the number and back: the digits are read as that number
(`Decimal.ofText?_digitsText`), and the number is shown as these digits
(`Value.numberText_ofNat`). Showing it takes two ways. Below `9 · 10 ^ 15` the integer is
written as such. From there on its shortest decimal is; as the neighbours of the number are
the next integers, the only decimal that is short enough to be tried and near enough to be
taken is the integer itself, without some of the zeros at its end, which are put back.

Key definitions: `Decimal.Digits.IsWhole`.
Key theorems: `Decimal.ofText?_digitsText`, `Decimal.isWhole_shortest`,
`Value.numberText_ofNat`.
-/
import ActionTree.Expr.Value
import ActionTree.Proofs.Binary64
import ActionTree.Proofs.Expr.Scanning

namespace ActionTree
namespace Decimal

/-! ### Digits -/

theorem digits_toDigits (n : Nat) : Grammar.Digits (Nat.toDigits 10 n) :=
  ⟨Nat.toDigits_ne_nil, fun _ hc => Nat.isDigit_of_mem_toDigits (by decide) (by decide) hc⟩

theorem ofDigits_toDigits (n : Nat) : ofDigits (Nat.toDigits 10 n) = n :=
  Nat.ofDigitChars_ten_toDigits

/-- **The digits of a whole number are read as the number nearest to it.** -/
theorem ofText?_digitsText (n : Nat) : ofText? (digitsText n).toList = some (Float.ofNat n) := by
  have hread := Grammar.ofText?_number (digits_toDigits n) .absent .absent
  rw [List.append_nil, List.append_nil] at hread
  rw [digitsText, String.toList_ofList, hread]
  show some (Float.ofScientific (ofDigits (Nat.toDigits 10 n ++ [])) false 0) = _
  rw [List.append_nil, ofDigits_toDigits]
  rfl

/-- A factor of ten puts a zero behind the digits. -/
theorem toDigits_mul_pow {n : Nat} (hn : 0 < n) (k : Nat) :
    Nat.toDigits 10 (n * Nat.pow 10 k) = Nat.toDigits 10 n ++ List.replicate k '0' := by
  induction k with
  | zero => simp
  | succ k ih =>
    have hpos : 0 < n * Nat.pow 10 k := Nat.mul_pos hn (Nat.pow_pos (by decide))
    have hstep := Nat.toDigits_append_toDigits (b := 10) (d := 0) (by decide) hpos (by decide)
    have hpow : n * Nat.pow 10 (k + 1) = 10 * (n * Nat.pow 10 k) + 0 := by
      show n * (Nat.pow 10 k * 10) = _
      ring
    rw [hpow, ← hstep, ih, List.append_assoc, Nat.toDigits_zero, List.replicate_succ']

/-! ### Decimals that are whole numbers -/

/-- A decimal is a whole number: its digits, with zeros behind them. -/
def Digits.IsWhole (d : Digits) (n : Nat) : Prop :=
  ∃ zeros : Nat, d.exponent = zeros ∧ d.digits * Nat.pow 10 zeros = n

namespace Digits.IsWhole

variable {d : Digits} {n : Nat}

theorem normalize (h : d.IsWhole n) (fuel : Nat) : (d.normalize fuel).IsWhole n := by
  induction fuel generalizing d with
  | zero => exact h
  | succ fuel ih =>
    rw [Digits.normalize]
    split
    · rename_i hd
      obtain ⟨zeros, he, hn⟩ := h
      have hmod : d.digits % 10 = 0 := by
        simp only [Bool.and_eq_true, decide_eq_true_eq] at hd
        exact hd.2
      refine ih ⟨zeros + 1, by rw [he]; rfl, ?_⟩
      calc
        d.digits / 10 * Nat.pow 10 (zeros + 1) = d.digits / 10 * 10 * Nat.pow 10 zeros := by
          show d.digits / 10 * (Nat.pow 10 zeros * 10) = _
          ring
        _ = d.digits * Nat.pow 10 zeros := by
          rw [Nat.div_mul_cancel (Nat.dvd_of_mod_eq_zero hmod)]
        _ = n := hn
    · exact h

/-- Positionally, a whole number is written as its digits. -/
theorem positionally (h : d.IsWhole n) (hn : 0 < n) {layout : Layout}
    (hl : layout.keepPoint = false) : layout.positionally d = digitsText n := by
  obtain ⟨zeros, he, rfl⟩ := h
  have hpos : 0 < d.digits := Nat.pos_of_mul_pos_right hn
  rw [Layout.positionally, if_pos (by omega), hl, he, digitsText, toDigits_mul_pow hpos]
  simp

end Digits.IsWhole

/-! ### Shortest decimals of whole numbers -/

section

variable {m : Nat} (hm : 0x10000000000000 < m)

include hm

theorem around_eq : Interval.around m 0 = ⟨4 * m - 2, 4 * m, 4 * m + 2, 4, m % 2 = 0⟩ := by
  have hne : m ≠ 0x10000000000000 := Nat.ne_of_gt hm
  simp [Interval.around, hne]

/-- The reals around an integer that are rounded to it reach halfway to the next integers, so
they contain no other integer. -/
theorem contains_iff (count k : Nat) : (Interval.around m 0).contains count (Nat.pow 10 k) 1 =
    decide (count * Nat.pow 10 k = m) := by
  rw [around_eq hm, Interval.contains]
  generalize count * Nat.pow 10 k = point
  dsimp only
  rw [Bool.eq_iff_iff]
  split <;> simp <;> omega

/-- A grid of integers has a decimal among these reals only if the integer lies on it. -/
theorem onGrid?_eq (tie : Tie) (k : Nat) : (Interval.around m 0).onGrid? tie k =
    if m % Nat.pow 10 k = 0 then some (m / Nat.pow 10 k) else none := by
  have hk : 0 < Nat.pow 10 k := Nat.pow_pos (by decide)
  have hdiv : 4 * m * 1 / (Nat.pow 10 k * 4) = m / Nat.pow 10 k := by
    rw [Nat.mul_one, Nat.mul_comm 4, Nat.mul_div_mul_right _ _ (by decide)]
  have hneg : Nat.pow 10 (-(k : Int)).toNat = 1 := by
    rw [show (-(k : Int)).toNat = 0 by omega]
  have hbelow := contains_iff hm (m / Nat.pow 10 k) k
  have habove : (Interval.around m 0).contains (m / Nat.pow 10 k + 1) (Nat.pow 10 k) 1 =
      false := by
    rw [contains_iff hm]
    exact decide_eq_false (Nat.ne_of_gt (Nat.lt_mul_of_div_lt (Nat.lt_succ_self _) hk))
  have hexact : m / Nat.pow 10 k * Nat.pow 10 k = m ↔ m % Nat.pow 10 k = 0 := by
    rw [← Nat.dvd_iff_mod_eq_zero, Nat.dvd_iff_div_mul_eq]
  rw [around_eq hm] at hbelow habove ⊢
  simp only [Interval.onGrid?, Int.toNat_natCast, hneg, hdiv, hbelow, habove, hexact]
  by_cases h : m % Nat.pow 10 k = 0
  · rw [if_pos h, decide_eq_true h]
  · rw [if_neg h, decide_eq_false h]

/-- The search finds the integer, on the finest of these grids if on no coarser one. -/
theorem isWhole_search (tie : Tie) {fuel k : Nat} (hk : k ≤ fuel) :
    ((Interval.around m 0).search tie fuel k).IsWhole m := by
  have hfound {k : Nat} (h : m % Nat.pow 10 k = 0) : Digits.IsWhole ⟨m / Nat.pow 10 k, k⟩ m :=
    ⟨k, rfl, Nat.div_mul_cancel (Nat.dvd_of_mod_eq_zero h)⟩
  induction k generalizing fuel with
  | zero =>
    have h : m % Nat.pow 10 0 = 0 := Nat.mod_one m
    cases fuel with
    | zero | succ fuel =>
      rw [Interval.search, onGrid?_eq hm, if_pos h]
      exact hfound h
  | succ k ih =>
    cases fuel with
    | zero => omega
    | succ fuel =>
      rw [Interval.search, onGrid?_eq hm]
      by_cases h : m % Nat.pow 10 (k + 1) = 0
      · rw [if_pos h]
        exact hfound h
      · rw [if_neg h, show ((k + 1 : Nat) : Int) - 1 = k by omega]
        exact ih (by omega)

/-- **The shortest decimal of an integer is that integer**, where the next integers are its
neighbours. -/
theorem isWhole_shortest (hhi : m < 0x20000000000000) (tie : Tie) :
    (shortest tie m 0).IsWhole m := by
  have hlog : m.log2 = 52 := (Nat.log2_eq_iff (by omega)).2 ⟨by omega, hhi⟩
  have hleading : ∃ k ≤ 16, (Interval.around m 0).leading 15 = (k : Nat) := by
    rw [Interval.leading]
    split
    · exact ⟨16, by decide, rfl⟩
    · exact ⟨15, by decide, rfl⟩
  obtain ⟨k, hk, hleading⟩ := hleading
  have hshortest : shortest tie m 0 = ((Interval.around m 0).search tie 16 k).normalize 18 := by
    rw [shortest, hlog, ← hleading]
    rfl
  rw [hshortest]
  exact (isWhole_search hm tie hk).normalize 18

end

end Decimal

namespace Value

variable {n : Nat}

theorem isInf_ofNat (hn : n < 0x20000000000000) : (Float.ofNat n).isInf = false := by
  rcases Nat.eq_zero_or_pos n with rfl | hpos
  · rfl
  · obtain ⟨zeros, hm, -, -, -, hunpack⟩ := Binary64.unpack_ofNat hpos hn
    exact congrArg Float.Model.UnpackedFloat.isInf hunpack

/-- An integer with 53 bits is written as its shortest decimal. -/
theorem render_ofNat (hlo : 9000000000000000 ≤ n) (hn : n < 0x20000000000000) :
    layout.render (Float.ofNat n) = Decimal.digitsText n := by
  obtain ⟨zeros, hm, -, -, hhi, hunpack⟩ := Binary64.unpack_ofNat (by omega) hn
  -- No zeros fit behind an integer as large as this.
  obtain rfl : zeros = 0 := by
    rcases Nat.eq_zero_or_pos zeros with h | h
    · exact h
    · have hpow : Nat.pow 2 1 ≤ Nat.pow 2 zeros := Nat.pow_le_pow_right (by decide) h
      have : n * 2 ≤ n * Nat.pow 2 zeros := Nat.mul_le_mul_left n hpow
      omega
  have hone : n * Nat.pow 2 0 = n := Nat.mul_one n
  have hwhole := Decimal.isWhole_shortest (m := n) (by omega) hn layout.tie
  rw [Decimal.Layout.render, hunpack]
  simp only [hone]
  show "" ++ layout.positionally (Decimal.shortest layout.tie n 0) = _
  rw [hwhole.positionally (by omega) rfl, String.empty_append]

/-- **An integer with at most 53 bits is shown as its digits.** -/
theorem numberText_ofNat (hn : n < 0x20000000000000) :
    numberText (Float.ofNat n) = Decimal.digitsText n := by
  rw [numberText, Binary64.isNaN_ofNat, isInf_ofNat hn, Binary64.integer?_ofNat hn]
  simp only [Bool.false_eq_true, if_false, Int.natAbs_natCast]
  by_cases hsmall : n < 9000000000000000
  · rw [if_pos hsmall, integerText, if_neg (by omega), Int.natAbs_natCast, String.empty_append]
  · rw [if_neg hsmall, render_ofNat (Nat.not_lt.1 hsmall) hn]

end Value
end ActionTree

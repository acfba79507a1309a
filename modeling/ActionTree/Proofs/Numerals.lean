/-
# Numbers as they are written

A whole number is written without needless zeros: its digits begin with a zero only if it is
zero (`Decimal.plain_toDigits`). Among all rows of digits these are the ones that stay as they
are when they are read and written again (`Decimal.toDigits_ofDigits`). The text of an integer
has a minus in front of such digits, if it is below zero (`Value.integerText_spec`).

A layout without an exponent writes a number as a whole number, with a fraction behind it that
does not end in a zero (`Decimal.positional_positionally`), or as one of the words for NaN and
infinity (`Decimal.numberText_render`): no exponent, no plus and no needless zero.

Key definitions: `Decimal.Plain`, `Decimal.IntegerText`, `Decimal.Positional`,
`Decimal.NumberText`.
Key theorems: `Decimal.toDigits_ofDigits`, `Decimal.plain_toDigits`,
`Value.integerText_spec`, `Decimal.positional_positionally`, `Decimal.numberText_render`.
-/
import ActionTree.Proofs.Decimal
import ActionTree.Proofs.Shortest

namespace ActionTree
namespace Decimal

open Float.Model.UnpackedFloat (Sign)

/-! ### Digits without needless zeros -/

/-- A row of digits in which no zero stands in front of others. -/
def Plain (digits : List Char) : Prop :=
  Grammar.Digits digits ∧ (digits.head? = some '0' → digits = ['0'])

theorem toNat_of_isDigit {c : Char} (h : c.isDigit = true) : 48 ≤ c.toNat ∧ c.toNat ≤ 57 :=
  Char.isDigit_iff_toNat.1 h

theorem digitValue_lt {c : Char} (h : c.isDigit = true) : digitValue c < 10 := by
  have hrange := toNat_of_isDigit h
  show c.toNat - 48 < 10
  omega

theorem toDigits_digitValue {c : Char} (h : c.isDigit = true) :
    Nat.toDigits 10 (digitValue c) = [c] := by
  have hlt := digitValue_lt h
  have hrange := toNat_of_isDigit h
  have hchar : Nat.digitChar (digitValue c) = c := by
    apply Char.toNat_inj.1
    rw [Nat.toNat_digitChar_of_lt_ten hlt]
    show 48 + (c.toNat - 48) = c.toNat
    omega
  rw [Nat.toDigits_of_lt_base hlt, hchar]

/-- Digits that follow a number go behind its digits. -/
theorem toDigits_foldl {digits : List Char} {n : Nat} (hn : 0 < n)
    (h : ∀ c ∈ digits, c.isDigit = true) :
    Nat.toDigits 10 (digits.foldl (fun n c => 10 * n + digitValue c) n) =
      Nat.toDigits 10 n ++ digits := by
  induction digits generalizing n with
  | nil => simp
  | cons c rest ih =>
    have hc := h c List.mem_cons_self
    have hrest : ∀ d ∈ rest, d.isDigit = true := fun d hd => h d (List.mem_cons_of_mem _ hd)
    have hstep : Nat.toDigits 10 (10 * n + digitValue c) = Nat.toDigits 10 n ++ [c] := by
      rw [← Nat.toDigits_append_toDigits (by decide) hn (digitValue_lt hc),
        toDigits_digitValue hc]
    rw [List.foldl_cons, ih (by omega) hrest, hstep, List.append_assoc, List.singleton_append]

/-- **Digits without needless zeros are the digits of the number they denote.** -/
theorem toDigits_ofDigits {digits : List Char} (h : Plain digits) :
    Nat.toDigits 10 (ofDigits digits) = digits := by
  obtain ⟨hdigits, hzero⟩ := h
  obtain ⟨c, rest, rfl, hc⟩ := hdigits.exists_cons
  have hrest : ∀ d ∈ rest, d.isDigit = true := fun d hd => hdigits.2 d (List.mem_cons_of_mem _ hd)
  by_cases hfirst : c = '0'
  · rw [hzero (by rw [hfirst]; rfl)]
    rfl
  · have hpos : 0 < digitValue c := by
      have hrange := toNat_of_isDigit hc
      have hne : c.toNat ≠ 48 := fun he => hfirst (Char.toNat_inj.1 he)
      show 0 < c.toNat - 48
      omega
    have hstart : ofDigits (c :: rest) =
        rest.foldl (fun n c => 10 * n + digitValue c) (digitValue c) := by
      rw [ofDigits, List.foldl_cons, Nat.mul_zero, Nat.zero_add]
    rw [hstart, toDigits_foldl hpos hrest, toDigits_digitValue hc, List.singleton_append]

/-- The last digit stands apart. -/
theorem toDigits_of_le {n : Nat} (hn : 10 ≤ n) :
    Nat.toDigits 10 n = Nat.toDigits 10 (n / 10) ++ [Nat.digitChar (n % 10)] := by
  have hmod : n % 10 < 10 := Nat.mod_lt _ (by decide)
  have hpos : 0 < n / 10 := by omega
  rw [← Nat.toDigits_of_lt_base hmod, Nat.toDigits_append_toDigits (by decide) hpos hmod,
    Nat.div_add_mod]

theorem plain_toDigits (n : Nat) : Plain (Nat.toDigits 10 n) := by
  refine ⟨digits_toDigits n, ?_⟩
  induction n using Nat.strongRecOn with
  | ind n ih =>
    intro hzero
    by_cases hn : n < 10
    · rw [Nat.toDigits_of_lt_base hn] at hzero ⊢
      rw [Option.some.inj hzero]
    · have hhead : (Nat.toDigits 10 (n / 10)).head? = some '0' := by
        rw [toDigits_of_le (Nat.not_lt.1 hn),
          List.head?_append_of_ne_nil _ Nat.toDigits_ne_nil] at hzero
        exact hzero
      have hdiv : n / 10 = 0 := by
        rw [← ofDigits_toDigits (n / 10), ih _ (by omega) hhead]
        rfl
      omega

theorem plain_zero : Plain ['0'] :=
  plain_toDigits 0

theorem getLast?_toDigits (n : Nat) :
    (Nat.toDigits 10 n).getLast? = some (Nat.digitChar (n % 10)) := by
  by_cases hn : n < 10
  · rw [Nat.toDigits_of_lt_base hn, Nat.mod_eq_of_lt hn]
    rfl
  · rw [toDigits_of_le (Nat.not_lt.1 hn)]
    exact List.getLast?_concat

/-- The digits end in a zero only if ten divides the number. -/
theorem getLast?_toDigits_ne {n : Nat} (hn : n % 10 ≠ 0) :
    (Nat.toDigits 10 n).getLast? ≠ some '0' := by
  have hmod : n % 10 < 10 := Nat.mod_lt _ (by decide)
  rw [getLast?_toDigits]
  intro h
  have hchar : (Nat.digitChar (n % 10)).toNat = 48 := congrArg Char.toNat (Option.some.inj h)
  rw [Nat.toNat_digitChar_of_lt_ten hmod] at hchar
  omega

/-! ### Integers -/

/-- The text of an integer: plain digits, with a minus in front of them below zero. -/
inductive IntegerText : List Char → Prop where
  | whole {digits : List Char} : Plain digits → IntegerText digits
  | negative {digits : List Char} : Plain digits → digits ≠ ['0'] → IntegerText ('-' :: digits)

theorem ofDigits_pos {digits : List Char} (h : Plain digits) (hzero : digits ≠ ['0']) :
    0 < ofDigits digits := by
  have hread := toDigits_ofDigits h
  rcases Nat.eq_zero_or_pos (ofDigits digits) with hdigits | hpos
  · rw [hdigits] at hread
    exact absurd hread.symm hzero
  · exact hpos

/-! ### Numbers with a fraction -/

/-- The text of a number without its sign: plain digits, with a fraction behind them that does
not end in a zero, if it is no whole number. -/
inductive Positional : List Char → Prop where
  | whole {digits : List Char} : Plain digits → Positional digits
  | fraction {whole digits : List Char} : Plain whole → Grammar.Digits digits →
      digits.getLast? ≠ some '0' → Positional (whole ++ '.' :: digits)

/-- Plain digits with a point among them. -/
theorem positional_cut {digits : List Char} {cut : Nat} (h : Plain digits)
    (hlast : digits.getLast? ≠ some '0') (hpos : 0 < cut) (hcut : cut < digits.length) :
    Positional (digits.take cut ++ '.' :: digits.drop cut) := by
  obtain ⟨hdigits, hzero⟩ := h
  have hhead : (digits.take cut).head? = digits.head? := by
    rw [List.head?_take, if_neg (by omega)]
  have htail : (digits.drop cut).getLast? = digits.getLast? := by
    rw [List.getLast?_drop, if_neg (by omega)]
  have hfirst : digits.head? ≠ some '0' := by
    intro h
    rw [hzero h] at hlast
    exact hlast rfl
  have hwhole : Grammar.Digits (digits.take cut) :=
    ⟨List.ne_nil_of_length_pos (by rw [List.length_take]; omega),
      fun c hc => hdigits.2 c (List.mem_of_mem_take hc)⟩
  have hfraction : Grammar.Digits (digits.drop cut) :=
    ⟨List.ne_nil_of_length_pos (by rw [List.length_drop]; omega),
      fun c hc => hdigits.2 c (List.mem_of_mem_drop hc)⟩
  refine .fraction ⟨hwhole, fun h => ?_⟩ hfraction ?_
  · rw [hhead] at h
    exact absurd h hfirst
  · rw [htail]
    exact hlast

/-- Digits far behind the point. -/
theorem positional_zeros {digits : List Char} (h : Grammar.Digits digits)
    (hlast : digits.getLast? ≠ some '0') (zeros : Nat) :
    Positional ('0' :: '.' :: List.replicate zeros '0' ++ digits) := by
  have hfraction : Grammar.Digits (List.replicate zeros '0' ++ digits) := by
    refine ⟨List.append_ne_nil_of_right_ne_nil _ h.1, fun c hc => ?_⟩
    rcases List.mem_append.1 hc with hc | hc
    · rw [List.eq_of_mem_replicate hc]
      decide
    · exact h.2 c hc
  have hend : (List.replicate zeros '0' ++ digits).getLast? ≠ some '0' := by
    rw [List.getLast?_append_of_ne_nil _ h.1]
    exact hlast
  exact Positional.fraction plain_zero hfraction hend

/-- **Positionally, a decimal without a zero at its end is written plainly.** -/
theorem positional_positionally {layout : Layout} {d : Digits} (hkeep : layout.keepPoint = false)
    (hd : d.digits % 10 ≠ 0) : Positional (layout.positionally d).toList := by
  have hplain := plain_toDigits d.digits
  have hlast := getLast?_toDigits_ne hd
  by_cases h : d.exponent < 0
  · obtain ⟨places, hplaces⟩ : ∃ places, places = (-d.exponent).toNat := ⟨_, rfl⟩
    unfold Layout.positionally
    rw [if_neg (by omega), ← hplaces]
    dsimp only
    by_cases hcut : places < (Nat.toDigits 10 d.digits).length
    · rw [if_pos hcut, String.toList_ofList]
      exact positional_cut hplain hlast (by omega) (by omega)
    · rw [if_neg hcut, String.toList_ofList]
      exact positional_zeros hplain.1 hlast _
  · have hwhole : d.IsWhole (d.digits * Nat.pow 10 d.exponent.toNat) :=
      ⟨d.exponent.toNat, by omega, rfl⟩
    have hpos : 0 < d.digits * Nat.pow 10 d.exponent.toNat :=
      Nat.mul_pos (by omega) (Nat.pow_pos (by decide))
    rw [hwhole.positionally hpos hkeep, digitsText, String.toList_ofList]
    exact .whole (plain_toDigits _)

/-- The text of a number: a word for NaN or infinity or a positional text, with a minus in front
of it below zero. -/
inductive NumberText : List Char → Prop where
  | notANumber : NumberText ['N', 'a', 'N']
  | infinity (sign : Sign) : NumberText ((signText sign).toList ++ ['i', 'n', 'f'])
  | finite (sign : Sign) {text : List Char} : Positional text →
      NumberText ((signText sign).toList ++ text)

/-- **Without an exponent, every number is written plainly.** -/
theorem numberText_render {layout : Layout} (hpositional : layout.positional = none)
    (hkeep : layout.keepPoint = false) (x : Float) : NumberText (layout.render x).toList := by
  have hdigits (d : Digits) : layout.renderDigits d = layout.positionally d := by
    rw [Layout.renderDigits, hpositional]
  unfold Layout.render
  split
  · exact .notANumber
  · rename_i sign _
    rw [String.toList_append]
    exact .infinity sign
  · rename_i sign _
    have hzero : layout.positionally ⟨0, 0⟩ = "0" := by
      simp [Layout.positionally, hkeep]
    rw [String.toList_append, hdigits, hzero]
    exact .finite sign (.whole plain_zero)
  · rename_i sign m e hm hx
    obtain ⟨hlo, hhi⟩ := Binary64.exponent_bounds hx
    obtain ⟨-, hmod⟩ := shortest_spec layout.tie hm (Binary64.mantissa_lt hx) hlo hhi
    rw [String.toList_append, hdigits]
    exact .finite sign (positional_positionally hkeep hmod)

end Decimal

namespace Value

theorem integerText_ofNat (n : Nat) : (integerText n).toList = Nat.toDigits 10 n := by
  have hsign : ¬ ((n : Int) < 0) := by omega
  rw [integerText, if_neg hsign, String.empty_append, Int.natAbs_natCast, Decimal.digitsText,
    String.toList_ofList]

theorem integerText_neg {n : Nat} (hn : 0 < n) :
    (integerText (-(n : Int))).toList = '-' :: Nat.toDigits 10 n := by
  have hsign : -(n : Int) < 0 := by omega
  rw [integerText, if_pos hsign]
  simp [Decimal.digitsText]

/-- The text of an integer is written as one. -/
theorem integerText_spec (n : Int) : Decimal.IntegerText (integerText n).toList := by
  rcases Int.natAbs_eq n with h | h
  · rw [h, integerText_ofNat]
    exact .whole (Decimal.plain_toDigits _)
  · rcases Nat.eq_zero_or_pos n.natAbs with hzero | hpos
    · rw [Int.natAbs_eq_zero.1 hzero]
      exact .whole (Decimal.plain_toDigits 0)
    · rw [h, integerText_neg hpos]
      refine .negative (Decimal.plain_toDigits _) fun hdigits => ?_
      have hread := Decimal.ofDigits_toDigits n.natAbs
      rw [hdigits] at hread
      exact absurd hread (Nat.ne_of_lt hpos)

end Value
end ActionTree

/-
# The integers that binary64 numbers are

A finite number is `± mantissa · 2 ^ exponent`, with a mantissa below `2 ^ 53`. It equals an
integer if the two sides agree once the power of two has been brought to the side where its
exponent is positive (`Binary64.EqualsInt`); `integer?` finds that integer. An integer with
at most 53 bits is its own number (`integer?_ofNat`). One with 64 bits does not fit into a
mantissa: its number is the multiple of `2 ^ 11` next to it, of two that are equally near the
one with an even quotient (`integer?_ofInt`). No integer becomes NaN (`isNaN_ofInt`).

Key definitions: `Binary64.EqualsInt`, `Binary64.nearestQuotient`.
Key theorems: `Binary64.integer?_eq_some`, `Binary64.mantissa_lt`, `Binary64.integer?_ofInt`,
`Binary64.unpack_ofNat`, `Binary64.integer?_ofNat`, `Binary64.isNaN_ofInt`.
-/
import Mathlib
import ActionTree.Binary64

namespace ActionTree.Binary64

open Float.Model (UnpackedFloat Format)
open Float.Model.UnpackedFloat

/-! ### Exact values -/

/-- A number is that integer. -/
def EqualsInt (x : Float) (n : Int) : Prop :=
  match x.toModel.unpack with
  | .notANumber | .infinity _ => False
  | .zero _ => n = 0
  | .finite sign mantissa exponent _ =>
    signed sign mantissa * Nat.pow 2 exponent.toNat = n * Nat.pow 2 (-exponent).toNat

theorem signed_mul (sign : Sign) (m k : Nat) : signed sign (m * k) = signed sign m * k := by
  cases sign with
  | positive => exact Int.natCast_mul m k
  | negative =>
    show -((m * k : Nat) : Int) = -(m : Int) * k
    rw [Int.natCast_mul, Int.neg_mul]

/-- **The integer that is found is the one that the number is**, and none is found only if
the number is none. -/
theorem integer?_eq_some (x : Float) (n : Int) : integer? x = some n ↔ EqualsInt x n := by
  unfold integer? EqualsInt
  rcases x.toModel.unpack with s | _ | s | ⟨s, m, e, hm⟩
  · simp
  · simp
  · simp [eq_comm]
  · dsimp only
    have hk : 0 < Nat.pow 2 (-e).toNat := Nat.two_pow_pos _
    by_cases he : 0 ≤ e
    · have hz : (-e).toNat = 0 := by omega
      rw [if_pos he, Option.some.injEq, hz, signed_mul]
      simp [Nat.pow]
    · have hz : e.toNat = 0 := by omega
      rw [if_neg he, hz]
      generalize Nat.pow 2 (-e).toNat = k at hk ⊢
      have hpow : (Nat.pow 2 0 : Int) = 1 := rfl
      by_cases hd : m % k = 0
      · have hmk : signed s m = signed s (m / k) * k := by
          rw [← signed_mul, Nat.div_mul_cancel (Nat.dvd_of_mod_eq_zero hd)]
        rw [if_pos hd, Option.some.injEq, hmk, hpow, Int.mul_one,
          Int.mul_eq_mul_right_iff (by omega)]
      · rw [if_neg hd, hpow, Int.mul_one]
        refine iff_of_false nofun fun hn => hd ?_
        have hdvd : (k : Int) ∣ signed s m := ⟨n, by rw [hn, Int.mul_comm]⟩
        have : (k : Int) ∣ m := by
          cases s with
          | positive => exact hdvd
          | negative => exact Int.dvd_neg.1 hdvd
        exact Nat.mod_eq_zero_of_dvd (Int.natCast_dvd_natCast.1 this)

/-! ### Packing -/

/-- The bit that is not stored makes up for the rest of the mantissa. -/
theorem toNat_implicit (m : BitVec 52) : (1#1 ++ m).toNat = 0x10000000000000 + m.toNat := by
  rw [BitVec.toNat_append, ← Nat.shiftLeft_add_eq_or_of_lt m.isLt]
  rfl

/-- A mantissa has 53 bits. -/
theorem mantissa_lt {x : Float} {sign : Sign} {m : Nat} {e : Int} {hm : 0 < m}
    (h : x.toModel.unpack = .finite sign m e hm) : m < 0x20000000000000 := by
  have hstored : (@unpackMantissa .binary64 x.toModel.toBits.toBitVec).toNat < 0x10000000000000 :=
    BitVec.isLt _
  simp only [Float.Model.unpack, unpack] at h
  split at h
  · split at h <;> cases h
  · split at h
    · split at h
      · cases h
      · injection h with _ h
        omega
    · injection h with _ h
      rw [toNat_implicit] at h
      omega

/-- An exponent has 11 bits, of which two patterns mean something else. -/
theorem exponent_bounds {x : Float} {sign : Sign} {m : Nat} {e : Int} {hm : 0 < m}
    (h : x.toModel.unpack = .finite sign m e hm) : -1074 ≤ e ∧ e ≤ 971 := by
  let stored := @unpackExponent .binary64 x.toModel.toBits.toBitVec
  have hstored : stored.toNat < 2048 := BitVec.isLt _
  simp only [Float.Model.unpack, unpack] at h
  split at h
  · split at h <;> cases h
  · rename_i hlast
    have hlast : stored.toNat ≠ 2047 := fun hn => hlast (BitVec.eq_of_toNat_eq hn)
    split at h
    · rename_i hfirst
      have hfirst : stored.toNat = 0 := congrArg BitVec.toNat hfirst
      split at h
      · cases h
      · injection h with _ _ h
        have h : (stored.toNat : Int) - 1075 + 1 = e := h
        omega
    · rename_i hfirst
      have hfirst : stored.toNat ≠ 0 := fun hn => hfirst (BitVec.eq_of_toNat_eq hn)
      injection h with _ _ h
      have h : (stored.toNat : Int) - 1075 = e := h
      omega

/-- **Integers from `2 ^ 63` on that are numbers are multiples of `2 ^ 11`**, as a mantissa
has 53 bits. -/
theorem EqualsInt.dvd {x : Float} {n : Int} (h : EqualsInt x n) (hn : 0x8000000000000000 ≤ n) :
    2048 ∣ n := by
  unfold EqualsInt at h
  split at h
  · exact h.elim
  · exact h.elim
  · omega
  · rename_i s m e hm hx
    have hbound := mantissa_lt hx
    have hsigned : signed s m ≤ m := by
      cases s <;> simp only [signed] <;> omega
    by_cases he : 11 ≤ e
    · have hz : (-e).toNat = 0 := by omega
      obtain ⟨k, hk⟩ : ∃ k, e.toNat = k + 11 := ⟨e.toNat - 11, by omega⟩
      have hpow : Nat.pow 2 (k + 11) = Nat.pow 2 k * 2048 := Nat.pow_add 2 k 11
      rw [hz, hk, hpow, Int.natCast_mul, ← Int.mul_assoc] at h
      exact ⟨signed s m * Nat.pow 2 k, by rw [Int.mul_comm, ← Int.mul_one n]; exact h.symm⟩
    · -- A smaller exponent does not take a mantissa that far.
      have hexp : e.toNat ≤ 10 := by omega
      have hpow : Nat.pow 2 e.toNat ≤ 1024 := Nat.pow_le_pow_right (by decide) hexp
      have hleft : signed s m * Nat.pow 2 e.toNat ≤ (m * 1024 : Nat) := calc
        _ ≤ (m : Int) * Nat.pow 2 e.toNat :=
          Int.mul_le_mul_of_nonneg_right hsigned (Int.natCast_nonneg _)
        _ = (m * Nat.pow 2 e.toNat : Nat) := (Int.natCast_mul _ _).symm
        _ ≤ (m * 1024 : Nat) := Int.ofNat_le.2 (Nat.mul_le_mul_left m hpow)
      have hright : n ≤ n * Nat.pow 2 (-e).toNat := calc
        n = n * 1 := (Int.mul_one n).symm
        _ ≤ n * Nat.pow 2 (-e).toNat :=
          Int.mul_le_mul_of_nonneg_left (Int.ofNat_le.2 (Nat.two_pow_pos _)) (by omega)
      omega

/-- A normal number is not changed when it is packed. -/
theorem unpack_pack {sign : Sign} {m : Nat} {e : Int} (hm : 0 < m) (hlo : 0x10000000000000 ≤ m)
    (hhi : m < 0x20000000000000) (he : -1074 ≤ e) (he' : e ≤ 971) :
    (Float.ofModel (.pack (.finite sign m e hm))).toModel.unpack = .finite sign m e hm := by
  -- The exponent is stored with a bias of 1075, and neither as 0 nor as 2047.
  obtain ⟨b, hb⟩ : ∃ b : Nat, e + 1075 = b := ⟨(e + 1075).toNat, by omega⟩
  have hexp : (BitVec.ofNat 11 b).toNat = b := Nat.mod_eq_of_lt (by omega)
  have hmant : (1#1 ++ BitVec.ofNat 52 m).toNat = m := by
    rw [toNat_implicit, BitVec.toNat_ofNat]
    omega
  have hpack : pack .binary64 (.finite sign m e hm) =
      packComponents .binary64 sign (BitVec.ofNat 11 b) (BitVec.ofNat 52 m) := by
    have hbits : m.log2 + 1 = Format.binary64.mantissaBits :=
      congrArg (· + 1) ((Nat.log2_eq_iff (by omega)).2 ⟨hlo, hhi⟩)
    have hbias : (e + Format.binary64.exponentBias + (52 : Nat)).toNat = b := by
      show (e + (1023 : Nat) + (52 : Nat)).toNat = b
      omega
    have hfits : ¬ 2 ^ 11 ≤ b + 1 := by omega
    simp only [pack, hbias, if_neg hfits, if_pos hbits]
  have hfull : BitVec.ofNat 11 b ≠ -1#11 := fun h => by
    have : b = 2047 := by rw [← hexp, h]; rfl
    omega
  have hzero : BitVec.ofNat 11 b ≠ 0#11 := fun h => by
    have : b = 0 := by rw [← hexp, h]; rfl
    omega
  show unpack .binary64 (pack .binary64 _) = _
  simp only [hpack, unpack, unpackMantissa_packComponents, unpackExponent_packComponents,
    unpackSign_packComponents, Sign.ofBitVec_toBitVec, if_neg hfull, if_neg hzero, hexp, hmant]
  have hback : (b : Int) - (Format.binary64.exponentBias + 52) = e := by
    show (b : Int) - ((1023 : Nat) + 52) = e
    omega
  congr 1

/-! ### Rounding -/

/-- A number divided by twice a number, rounded to the nearest integer, which is the even one
of two that are equally near. -/
def nearestQuotient (n half : Nat) : Nat :=
  if n % (2 * half) < half then n / (2 * half)
  else if n % (2 * half) = half then n / (2 * half) + n / (2 * half) % 2
  else n / (2 * half) + 1

/-- What is left of a mantissa when bits are shifted out: the round bit is the last of them,
the sticky bit tells whether there were others. -/
theorem shiftRight_succ (m k : Nat) :
    (⟨m, false, false⟩ : ExtendedMantissa) >>> (k + 1) =
      ⟨m / (2 * Nat.pow 2 k), m / Nat.pow 2 k % 2 != 0, m % Nat.pow 2 k != 0⟩ := by
  induction k with
  | zero =>
    show (⟨m / 2, m % 2 != 0, false⟩ : ExtendedMantissa) = ⟨m / 2, m / 1 % 2 != 0, m % 1 != 0⟩
    rw [Nat.div_one, Nat.mod_one]
    rfl
  | succ k ih =>
    show ((⟨m, false, false⟩ : ExtendedMantissa) >>> (k + 1)).shiftRightOne = _
    have hpow : Nat.pow 2 (k + 1) = Nat.pow 2 k * 2 := rfl
    have hk : 0 < Nat.pow 2 k := Nat.two_pow_pos k
    rw [ih, hpow]
    generalize Nat.pow 2 k = u at hk ⊢
    have hmod : m % (u * 2) = m % u + u * (m / u % 2) := Nat.mod_mul
    simp only [ExtendedMantissa.shiftRightOne, ExtendedMantissa.mk.injEq]
    refine ⟨?_, ?_, ?_⟩
    · rw [Nat.div_div_eq_div_mul, Nat.mul_assoc]
    · rw [Nat.mul_comm 2 u]
    · rw [hmod]
      rcases Nat.mod_two_eq_zero_or_one (m / u) with h | h
      · simp [h]
      · have : m % u + u * 1 ≠ 0 := by omega
        rw [h, bne_iff_ne.2 this]
        rfl

theorem roundedMantissa_shiftRight (m k : Nat) :
    ((⟨m, false, false⟩ : ExtendedMantissa) >>> (k + 1)).roundedMantissa =
      nearestQuotient m (Nat.pow 2 k) := by
  have hk : 0 < Nat.pow 2 k := Nat.two_pow_pos k
  rw [shiftRight_succ, nearestQuotient, Nat.mul_comm 2]
  generalize Nat.pow 2 k = u at hk ⊢
  have hmod : m % (u * 2) = m % u + u * (m / u % 2) := Nat.mod_mul
  have hlt : m % u < u := Nat.mod_lt m hk
  rw [hmod]
  -- Below the middle the round bit is 0; in the middle it is 1 and the sticky bit 0.
  rcases Nat.mod_two_eq_zero_or_one (m / u) with h | h
  · rw [if_pos (by rw [h]; omega), h]
    cases m % u != 0 <;> rfl
  · rw [if_neg (by rw [h]; omega), h]
    by_cases hs : m % u = 0
    · rw [if_pos (by omega), hs]
      rfl
    · rw [if_neg (by omega), bne_iff_ne.2 hs]
      rfl

theorem nearestQuotient_mul (m half : Nat) {u : Nat} (hu : 0 < u) :
    nearestQuotient (m * u) (half * u) = nearestQuotient m half := by
  have hmod : m * u % (2 * (half * u)) = m % (2 * half) * u := by
    rw [← Nat.mul_assoc, Nat.mul_mod_mul_right]
  have hdiv : m * u / (2 * (half * u)) = m / (2 * half) := by
    rw [← Nat.mul_assoc, Nat.mul_div_mul_right _ _ hu]
  have heq : m % (2 * half) * u = half * u ↔ m % (2 * half) = half :=
    Nat.mul_left_inj (Nat.ne_of_gt hu)
  simp only [nearestQuotient, hmod, hdiv, Nat.mul_lt_mul_right hu, heq]

/-- Where the quotient of an integer with 64 bits by `2 ^ 11` lies. -/
theorem nearestQuotient_bounds {m : Nat} (hlo : 0x8000000000000000 ≤ m)
    (hhi : m < 0x10000000000000000) :
    0x10000000000000 ≤ nearestQuotient m 1024 ∧ nearestQuotient m 1024 ≤ 0x20000000000000 := by
  unfold nearestQuotient
  split
  · omega
  · split <;> omega

/-- Only the first of these integers are rounded down to `2 ^ 63`. -/
theorem nearestQuotient_le_iff {m : Nat} (hlo : 0x8000000000000000 ≤ m) :
    nearestQuotient m 1024 * 2048 ≤ 0x8000000000000000 ↔ m ≤ 0x8000000000000400 := by
  unfold nearestQuotient
  split
  · omega
  · split <;> omega

/-- The exponent at which a mantissa of `53 + k` bits has 53 bits is `k` higher, so `k` bits
are shifted out. -/
theorem shiftToTargetExponent_eq {m k : Nat} {e : Int} (hm : m.log2 = 52 + k) (he : -1074 ≤ e + k) :
    shiftToTargetExponent .binary64 m e .exact =
      ((⟨m, false, false⟩ : ExtendedMantissa) >>> k, e + k) := by
  have htarget : Format.binary64.targetExponent (Float.Model.totalExponent m e) = e + k := by
    show max ((m.log2 : Int) + 1 + e - (53 : Nat)) (-1074) = e + k
    omega
  have hshift : (e + k - e).toNat = k := by omega
  simp only [shiftToTargetExponent, htarget, shiftToExponent, hshift]
  rfl

/-- What remains of a mantissa when it is rounded to 53 bits. It may come out with one bit
more than that, if rounding carries through all of its bits; the last bit is 0 then. -/
theorem roundWithAccuracy_eq {m q k : Nat} {e : Int} (hm : m.log2 = 52 + (k + 1))
    (he : -1074 ≤ e + (k + 1 : Nat)) (hq : nearestQuotient m (Nat.pow 2 k) = q) (hpos : 0 < q) :
    (q.log2 = 52 + 0 → roundWithAccuracy .binary64 .positive m e .exact =
      .finite .positive q (e + (k + 1 : Nat)) hpos) ∧
    (q = 0x20000000000000 → roundWithAccuracy .binary64 .positive m e .exact =
      .finite .positive 0x10000000000000 (e + (k + 1 : Nat) + 1) (by decide)) := by
  have hround := (roundedMantissa_shiftRight m k).trans hq
  have hfirst := shiftToTargetExponent_eq hm he
  refine ⟨fun hlog => ?_, fun hcarry => ?_⟩
  · have hsecond := shiftToTargetExponent_eq (e := e + (k + 1 : Nat)) hlog (by omega)
    rw [Int.natCast_zero, Int.add_zero] at hsecond
    simp only [roundWithAccuracy, hfirst, hround, hsecond]
    exact dif_neg (Nat.ne_of_gt hpos)
  · have hlog : q.log2 = 52 + 1 := (Nat.log2_eq_iff (by omega)).2 (by omega)
    have hsecond := shiftToTargetExponent_eq (e := e + (k + 1 : Nat)) hlog (by omega)
    subst hcarry
    simp only [roundWithAccuracy, hfirst, hround, hsecond]
    rfl

/-- An integer beyond `2 ^ 53` is read as a decimal with exponent 0, which puts 53 zeros
behind it before it is rounded. -/
theorem ofNat_eq {m : Nat} (hm : 0x20000000000000 ≤ m) :
    Float.ofNat m = .ofModel (.pack
      (roundWithAccuracy .binary64 .positive (m * 0x20000000000000) (-53) .exact)) := by
  have hlarge : ¬ (m < 2 ^ 53 ∧ 0 ≤ 22) := by omega
  show Float.ofScientific m false 0 = _
  have hpos : m ≠ 0 := by omega
  have hsmall : ¬ (0 : Int) < -((2 ^ 11 : Int) + m.log2) := by omega
  have hscaled : UnpackedFloat.ofScientific .binary64 m 0 =
      roundWithAccuracy .binary64 .positive (m <<< 53 * 10 ^ 0) (-53) .exact := by
    rw [ofScientific, dif_neg hpos, if_neg (by decide), if_neg hsmall, if_pos (by decide)]
    rfl
  rw [Float.ofScientific, dif_neg hlarge]
  show Float.ofModel (.pack (UnpackedFloat.ofScientific .binary64 m 0)) = _
  rw [hscaled, Nat.pow_zero, Nat.mul_one, Nat.shiftLeft_eq]

/-- **The binary64 number of an integer with 64 bits** is the nearest multiple of `2 ^ 11`. -/
theorem integer?_ofInt {n : Int} (hlo : 0x8000000000000000 ≤ n) (hhi : n < 0x10000000000000000) :
    integer? (Float.ofInt n) = some ((nearestQuotient n.toNat 1024 : Int) * 2048) := by
  obtain ⟨m, rfl⟩ : ∃ m : Nat, n = m := ⟨n.toNat, by omega⟩
  have hlog : (m * 0x20000000000000).log2 = 52 + (63 + 1) :=
    (Nat.log2_eq_iff (by omega)).2 (by omega)
  obtain ⟨q, hq⟩ : ∃ q, nearestQuotient m 1024 = q := ⟨_, rfl⟩
  obtain ⟨hqlo, hqhi⟩ := nearestQuotient_bounds (m := m) (by omega) (by omega)
  have hqs : nearestQuotient (m * 0x20000000000000) (Nat.pow 2 63) = q :=
    (nearestQuotient_mul m 1024 (by decide)).trans hq
  rw [hq] at hqlo hqhi
  obtain ⟨hfits, hcarry⟩ := roundWithAccuracy_eq (e := -53) hlog (by decide) hqs (by omega)
  show integer? (Float.ofNat m) = _
  rw [ofNat_eq (by omega), Int.toNat_natCast, hq]
  by_cases hlt : q < 0x20000000000000
  · have hqlog : q.log2 = 52 + 0 := (Nat.log2_eq_iff (by omega)).2 ⟨hqlo, hlt⟩
    rw [hfits hqlog, integer?, unpack_pack (by omega) hqlo hlt (by decide) (by decide)]
    rfl
  · obtain rfl : q = 0x20000000000000 := by omega
    rw [hcarry rfl, integer?,
      unpack_pack (by decide) (by decide) (by decide) (by decide) (by decide)]
    rfl

/-! ### Small integers -/

/-- A mantissa with 53 bits is not changed by rounding. -/
theorem roundWithAccuracy_mantissa {m : Nat} {e : Int} (hlo : 0x10000000000000 ≤ m)
    (hhi : m < 0x20000000000000) (he : -1074 ≤ e) (hm : 0 < m) :
    roundWithAccuracy .binary64 .positive m e .exact = .finite .positive m e hm := by
  have hlog : m.log2 = 52 + 0 := (Nat.log2_eq_iff (by omega)).2 ⟨hlo, hhi⟩
  have hshift := shiftToTargetExponent_eq (e := e) hlog (by omega)
  rw [Int.natCast_zero, Int.add_zero] at hshift
  have hround : ((⟨m, false, false⟩ : ExtendedMantissa) >>> 0).roundedMantissa = m := rfl
  simp only [roundWithAccuracy, hshift, hround]
  exact dif_neg (Nat.ne_of_gt hm)

/-- An integer with at most 53 bits becomes a mantissa when zeros are put behind it. -/
theorem exists_mantissa {n : Nat} (hpos : 0 < n) (hn : n < 0x20000000000000) :
    ∃ zeros ≤ 52, n.log2 = 52 - zeros ∧
      0x10000000000000 ≤ n * Nat.pow 2 zeros ∧ n * Nat.pow 2 zeros < 0x20000000000000 := by
  have hlog : n.log2 < 53 := (Nat.log2_lt (by omega)).2 hn
  obtain ⟨zeros, hz⟩ : ∃ zeros, n.log2 + zeros = 52 := ⟨52 - n.log2, by omega⟩
  obtain ⟨hlo, hhi⟩ := (Nat.log2_eq_iff (k := n.log2) (by omega : n ≠ 0)).1 rfl
  have hfull : 2 ^ n.log2 * Nat.pow 2 zeros = 0x10000000000000 := by
    show 2 ^ n.log2 * 2 ^ zeros = 2 ^ 52
    rw [← Nat.pow_add, hz]
  refine ⟨zeros, by omega, by omega, ?_, ?_⟩
  · rw [← hfull]
    exact Nat.mul_le_mul_right _ hlo
  · have hlt : n * Nat.pow 2 zeros < 2 ^ n.log2 * 2 * Nat.pow 2 zeros :=
      Nat.mul_lt_mul_of_pos_right hhi (Nat.two_pow_pos zeros)
    rwa [Nat.mul_right_comm, hfull] at hlt

variable {n : Nat}

/-- The word of an integer is brought to a mantissa without rounding. -/
theorem ofUInt64_eq {zeros : Nat} (hz : zeros ≤ 52) (hlog : n.log2 = 52 - zeros)
    (hlo : 0x10000000000000 ≤ n * Nat.pow 2 zeros)
    (hhi : n * Nat.pow 2 zeros < 0x20000000000000) (hpos : 0 < n) (hn : n < 0x20000000000000)
    (hm : 0 < n * Nat.pow 2 zeros) : UnpackedFloat.ofUInt64 .binary64 n.toUInt64 =
      .finite .positive (n * Nat.pow 2 zeros) (-zeros) hm := by
  have hword : n.toUInt64.toNat = n := Nat.mod_eq_of_lt (by omega)
  have htarget : Format.binary64.targetExponent (Float.Model.totalExponent n 0) = -zeros := by
    show max ((n.log2 : Int) + 1 + 0 - (53 : Nat)) (-1074) = -zeros
    omega
  have hshift : (0 - -(zeros : Int)).toNat = zeros := by omega
  have hexp : (0 : Int) - zeros = -zeros := by omega
  have hcompare : compare (n : Int) 0 = .gt := Int.compare_eq_gt.2 (by omega)
  simp only [UnpackedFloat.ofUInt64, UnpackedFloat.ofNat, UnpackedFloat.ofInt, hword,
    UnpackedFloat.normalize, hcompare, Int.toNat_natCast, UnpackedFloat.round, htarget,
    decreaseExponent, hshift, hexp, Nat.shiftLeft_eq]
  exact roundWithAccuracy_mantissa hlo hhi (by omega) hm

/-- A mantissa is not changed by a factor of one, whose own mantissa puts 52 zeros behind
it that are rounded off again. -/
theorem roundWithAccuracy_mul_one {m : Nat} {e : Int} (hlo : 0x10000000000000 ≤ m)
    (hhi : m < 0x20000000000000) (he : -1074 ≤ e) (hm : 0 < m) :
    roundWithAccuracy .binary64 .positive (m * 0x10000000000000) (e + -52) .exact =
      .finite .positive m e hm := by
  have hlog : (m * 0x10000000000000).log2 = 52 + (51 + 1) :=
    (Nat.log2_eq_iff (by omega)).2 (by omega)
  have hquotient : nearestQuotient (m * 0x10000000000000) (Nat.pow 2 51) = m := by
    show nearestQuotient _ 0x8000000000000 = _
    rw [nearestQuotient, if_pos (by omega)]
    omega
  have hround := (roundWithAccuracy_eq (e := e + -52) hlog (by omega) hquotient hm).1
    ((Nat.log2_eq_iff (by omega)).2 ⟨hlo, hhi⟩)
  have hexp : e + -52 + (51 + 1 : Nat) = e := by omega
  rwa [hexp] at hround

/-- An integer with at most 53 bits is a number: its digits with zeros behind them, and the
exponent that takes these off again. -/
theorem unpack_ofNat (hpos : 0 < n) (hn : n < 0x20000000000000) :
    ∃ zeros hm, zeros ≤ 52 ∧ 0x10000000000000 ≤ n * Nat.pow 2 zeros ∧
      n * Nat.pow 2 zeros < 0x20000000000000 ∧
      (Float.ofNat n).toModel.unpack = .finite .positive (n * Nat.pow 2 zeros) (-zeros) hm := by
  obtain ⟨zeros, hz, hlog, hlo, hhi⟩ := exists_mantissa hpos hn
  have hm : 0 < n * Nat.pow 2 zeros := by omega
  refine ⟨zeros, hm, hz, hlo, hhi, ?_⟩
  have hone : (Float.ofBits 0x3FF0000000000000).toModel.unpack =
      .finite .positive 0x10000000000000 (-52) (by decide) := rfl
  have hfactor : Float.ofNat n = n.toUInt64.toFloat * Float.ofBits 0x3FF0000000000000 := by
    show Float.ofScientific n false 0 = _
    rw [Float.ofScientific, dif_pos ⟨hn, by decide⟩]
    rfl
  have hword : n.toUInt64.toFloat.toModel.unpack =
      .finite .positive (n * Nat.pow 2 zeros) (-zeros) hm := by
    show (Float.ofModel (.pack (UnpackedFloat.ofUInt64 .binary64 n.toUInt64))).toModel.unpack = _
    rw [ofUInt64_eq hz hlog hlo hhi hpos hn hm, unpack_pack hm hlo hhi (by omega) (by omega)]
  rw [hfactor]
  show (Float.ofModel (.pack (UnpackedFloat.mul .binary64 n.toUInt64.toFloat.toModel.unpack
    (Float.ofBits 0x3FF0000000000000).toModel.unpack))).toModel.unpack = _
  rw [hword, hone]
  show (Float.ofModel (.pack (roundWithAccuracy .binary64 .positive _ _ .exact))).toModel.unpack
    = _
  rw [roundWithAccuracy_mul_one hlo hhi (by omega) hm, unpack_pack hm hlo hhi (by omega) (by omega)]

/-- **An integer with at most 53 bits is its own number.** -/
theorem integer?_ofNat (hn : n < 0x20000000000000) : integer? (Float.ofNat n) = some (n : Int) := by
  rcases Nat.eq_zero_or_pos n with rfl | hpos
  · rfl
  · obtain ⟨zeros, hm, hz, -, -, hunpack⟩ := unpack_ofNat hpos hn
    have hexp : (-(zeros : Int)).toNat = 0 := by omega
    have hback : (- -(zeros : Int)).toNat = zeros := by omega
    rw [integer?_eq_some, EqualsInt, hunpack]
    show ((n * Nat.pow 2 zeros : Nat) : Int) * Nat.pow 2 (-(zeros : Int)).toNat =
      n * Nat.pow 2 (- -(zeros : Int)).toNat
    rw [hexp, hback, Int.natCast_mul]
    exact Int.mul_one _

/-! ### NaN -/

/-- Bits whose exponent is not all ones are those of a number. -/
theorem isNaN_unpack_packComponents (sign : Sign) {b : BitVec 11} (hb : b ≠ -1#11)
    (m : BitVec 52) : (unpack .binary64 (packComponents .binary64 sign b m)).isNaN = false := by
  simp only [unpack, unpackExponent_packComponents, if_neg hb]
  split
  · split <;> rfl
  · rfl

/-- Packing turns no number into NaN, not even one that is too large. -/
theorem isNaN_unpack_pack (x : UnpackedFloat) :
    (Float.ofModel (.pack x)).toModel.unpack.isNaN = x.isNaN := by
  show (unpack .binary64 (pack .binary64 x)).isNaN = x.isNaN
  cases x with
  | notANumber => rfl
  | infinity s | zero s => cases s <;> rfl
  | finite s m e hm =>
    rw [pack]
    dsimp only
    split
    · cases s <;> rfl
    · rename_i hfits
      split
      · refine isNaN_unpack_packComponents s (fun hfull => hfits ?_) _
        have htop : _ % 2048 = 2047 :=
          (BitVec.toNat_ofNat _ 11).symm.trans (congrArg BitVec.toNat hfull)
        show 2048 ≤ _ + 1
        omega
      · exact isNaN_unpack_packComponents s (by decide) _

theorem isNaN_ofNat (n : Nat) : (Float.ofNat n).isNaN = false := by
  by_cases hn : n < 0x20000000000000
  · rcases Nat.eq_zero_or_pos n with rfl | hpos
    · rfl
    · obtain ⟨zeros, hm, -, -, -, hunpack⟩ := unpack_ofNat hpos hn
      exact congrArg UnpackedFloat.isNaN hunpack
  · rw [ofNat_eq (Nat.not_lt.1 hn)]
    refine (isNaN_unpack_pack _).trans ?_
    unfold roundWithAccuracy
    dsimp only
    split <;> rfl

theorem isNaN_neg (x : Float) : (-x).isNaN = x.isNaN := by
  have hsign (y : UnpackedFloat) : y.neg.isNaN = y.isNaN := by cases y <;> rfl
  exact (isNaN_unpack_pack _).trans (hsign _)

/-- **No integer becomes NaN**, however large it is. -/
theorem isNaN_ofInt (n : Int) : (Float.ofInt n).isNaN = false := by
  cases n with
  | ofNat n => exact isNaN_ofNat n
  | negSucc n => exact (isNaN_neg _).trans (isNaN_ofNat _)

end ActionTree.Binary64

import CircuitScript.Blueprint.Decode
import CircuitScript.Proofs.JsonRoundTrip
import Mathlib.Tactic.Linarith
import Mathlib.Tactic.Ring
/-!
Numbers that come back as they were written: integers of a machine word, and the half-integers at
which the middles of entities lie. The latter are read through floating point, which holds them
exactly, so rounding to tiles recovers the tile.
-/
namespace CircuitScript

namespace Binary64

/-- The magnitude is finite, and it is a number of halves. -/
def IsHalves (value : Binary64) (halves : Nat) : Prop :=
  ∃ mantissa exponent, value = finite mantissa exponent ∧
    2 * (fraction mantissa exponent).1 = halves * (fraction mantissa exponent).2

theorem fraction_snd_pos (mantissa : Nat) (exponent : Int) :
    0 < (fraction mantissa exponent).2 :=
  Nat.pow_pos (by decide)

theorem roundHalfEven_mul (quotient : Nat) {den : Nat} (h : 0 < den) :
    roundHalfEven (quotient * den) den = quotient := by
  simp [roundHalfEven, Nat.mul_div_cancel _ h, h]

/-- Two fractions differ by fewer binary places than their logarithms and one. -/
theorem log2_lt_of_lt_mul {num den places : Nat} (hnum : num ≠ 0)
    (h : num < den * 2 ^ places) : num.log2 < den.log2 + 1 + places := by
  apply (Nat.pow_lt_pow_iff_right (a := 2) (by decide)).1
  calc 2 ^ num.log2 ≤ num := Nat.log2_self_le hnum
    _ < den * 2 ^ places := h
    _ ≤ 2 ^ (den.log2 + 1) * 2 ^ places := Nat.mul_le_mul_right _ (Nat.le_of_lt Nat.lt_log2_self)
    _ = 2 ^ (den.log2 + 1 + places) := (Nat.pow_add ..).symm

/-- Below `2 ^ 52` the unit of the last place is at most a half. -/
theorem exponentOf_neg {num den : Nat} (hnum : num ≠ 0) (hden : 0 < den)
    (h : num < den * 2 ^ 52) : minExponent ≤ exponentOf num den ∧ exponentOf num den ≤ -1 := by
  have hlog := log2_lt_of_lt_mul hnum h
  unfold exponentOf
  generalize hguess : max ((num.log2 : Int) - den.log2 - 53) minExponent = guess
  have hlow : minExponent ≤ guess := by omega
  have hneg : guess ≤ -1 := by
    simp only [minExponent] at hguess
    omega
  dsimp only [shifted]
  split
  · next hfull =>
    refine ⟨by omega, ?_⟩
    by_contra hge
    obtain rfl : guess = -1 := by omega
    have hle := (Nat.le_div_iff_mul_le (by simpa using hden)).1 hfull
    simp only [Nat.pow_eq, Int.neg_neg, Int.toNat_one] at hle
    simp at hle
    omega
  · exact ⟨hlow, hneg⟩

/-- A whole mantissa one too long is half as many of the next unit. -/
theorem isHalves_carry {mantissa halves : Nat} {exponent : Int} (hexp : exponent ≤ -1)
    (h : 2 * (2 * mantissa) = halves * 2 ^ (-exponent).toNat) :
    (finite mantissa (exponent + 1)).IsHalves halves := by
  refine ⟨mantissa, exponent + 1, rfl, ?_⟩
  have hplaces : (-exponent).toNat = (-(exponent + 1)).toNat + 1 := by omega
  have hwhole : (exponent + 1).toNat = 0 := by omega
  rw [hplaces, pow_succ] at h
  simp only [fraction, Nat.pow_eq, hwhole, pow_zero]
  linarith

/-- A half-integer below `2 ^ 52` is its own nearest magnitude. -/
theorem nearest_isHalves {num den halves : Nat} (hden : 0 < den) (h : 2 * num = halves * den)
    (hhalves : halves < 2 ^ 53) : (nearest num den).IsHalves halves := by
  by_cases hnum : num = 0
  · have hzero : halves = 0 := by
      rcases Nat.mul_eq_zero.1 (h.symm.trans (by omega)) with hz | hz <;> omega
    exact ⟨0, minExponent, by simp [nearest, hnum], by simp [fraction, hzero]⟩
  have hbound : num < den * 2 ^ 52 := by nlinarith
  obtain ⟨hlow, hneg⟩ := exponentOf_neg hnum hden hbound
  unfold nearest
  rw [if_neg hnum]
  generalize exponentOf num den = exponent at hlow hneg
  obtain ⟨places, rfl⟩ : ∃ places : Nat, exponent = -(places + 1 : Int) :=
    ⟨(-exponent - 1).toNat, by omega⟩
  have hplaces : (-(-(places + 1 : Int))).toNat = places + 1 := by omega
  have hwhole : (-(places + 1 : Int)).toNat = 0 := by omega
  -- The last place is worth at most a half, so the fraction shifts to a whole number.
  have hshift : shifted num den (-(places + 1 : Int)) = (halves * 2 ^ places * den, den) := by
    simp only [shifted, hplaces, hwhole, Nat.pow_eq, pow_zero, mul_one, Prod.mk.injEq, and_true]
    calc num * 2 ^ (places + 1) = 2 * num * 2 ^ places := by ring
      _ = halves * 2 ^ places * den := by rw [h]; ring
  dsimp only
  rw [hshift]
  dsimp only
  rw [roundHalfEven_mul _ hden]
  split
  · next hfull =>
    rw [if_neg (by simp only [maxExponent]; omega)]
    refine isHalves_carry (by omega) ?_
    rw [hplaces, pow_succ, ← mul_assoc halves, hfull]
    norm_num [Nat.pow_eq]
  · rw [if_neg (by simp only [maxExponent]; omega)]
    refine ⟨_, _, rfl, ?_⟩
    simp only [fraction, hplaces, hwhole, Nat.pow_eq, pow_succ, pow_zero]
    ring

end Binary64

namespace Numeral

theorem digits_toDigits (n : Nat) : Digits (Nat.toDigits 10 n) := by
  refine ⟨Nat.toDigits_ne_nil, fun c hc => ?_⟩
  have hdigit := Nat.isDigit_of_mem_toDigits (by decide) (by decide) hc
  simpa [Char.isDigit, isDigit, Char.le_def] using hdigit

theorem eq_zero_of_digitChar : ∀ n < 10, Nat.digitChar n = '0' → n = 0 := by decide

/-- Only zero is written with a leading zero. -/
theorem head?_toDigits {n : Nat} (h : (Nat.toDigits 10 n).head? = some '0') : n = 0 := by
  induction n using Nat.strongRecOn with
  | ind n ih =>
    by_cases hn : n < 10
    · rw [Nat.toDigits_of_lt_base hn, List.head?_cons] at h
      exact eq_zero_of_digitChar n hn (Option.some.inj h)
    · obtain ⟨d, ds, hds⟩ := List.exists_cons_of_ne_nil (@Nat.toDigits_ne_nil (n / 10) 10)
      rw [Nat.toDigits_of_base_le (by decide) (by omega), hds, List.cons_append] at h
      have := ih (n / 10) (by omega) (by rw [hds]; exact h)
      omega

theorem leading_toDigits {n : Nat} (h : (Nat.toDigits 10 n).head? = some '0') :
    Nat.toDigits 10 n = ['0'] := by
  rw [head?_toDigits h]
  rfl

theorem wellFormed_ofNat (n : Nat) : (ofNat n).WellFormed where
  whole := digits_toDigits n
  leading := leading_toDigits
  fraction := by simp [ofNat]
  exponent := by simp [ofNat]

theorem wellFormed_ofInt (n : Int) : (ofInt n).WellFormed where
  whole := digits_toDigits n.natAbs
  leading := leading_toDigits
  fraction := by simp [ofInt]
  exponent := by simp [ofInt]

theorem wellFormed_ofHalves (n : Int) : (ofHalves n).WellFormed where
  whole := digits_toDigits (n.natAbs / 2)
  leading := leading_toDigits
  fraction := by
    rintro ds ⟨⟩
    split <;> exact ⟨by simp, by simp [isDigit]⟩
  exponent := by simp [ofHalves]

theorem le_ofDigitChars (cs : List Char) (start : Nat) : start ≤ Nat.ofDigitChars 10 cs start := by
  induction cs generalizing start with
  | nil => simp
  | cons c cs ih =>
    rw [Nat.ofDigitChars_cons]
    have := ih (10 * start + (c.toNat - '0'.toNat))
    omega

/-- Digits of a number that fits are all taken. -/
theorem significand_eq {cs : List Char} {start : Nat}
    (h : Nat.ofDigitChars 10 cs start < 2 ^ 64) :
    significand start cs = (Nat.ofDigitChars 10 cs start, cs.length, 0) := by
  induction cs generalizing start with
  | nil => simp [significand]
  | cons c cs ih =>
    rw [Nat.ofDigitChars_cons, mul_comm 10] at h ⊢
    have hvalue := le_ofDigitChars cs (start * 10 + (c.toNat - '0'.toNat))
    rw [significand]
    simp only [Nat.pow_eq]
    rw [if_pos (by omega), ih h]
    rfl

theorem significand_toDigits {n : Nat} (h : n < 2 ^ 64) :
    significand 0 (Nat.toDigits 10 n) = (n, (Nat.toDigits 10 n).length, 0) := by
  have hread := @Nat.ofDigitChars_ten_toDigits n
  rw [significand_eq (by rw [hread]; exact h), hread]

theorem word?_toDigits {n : Nat} (h : n < 2 ^ 64) : word? (Nat.toDigits 10 n) = some n := by
  simp [word?, significand_toDigits h]

theorem toInt?_ofNat {n : Nat} (h : n < 2 ^ 64) : (ofNat n).toInt? = some (n : Int) := by
  simp [toInt?, ofNat, word?_toDigits h]

theorem toInt?_ofInt {n : Int} (hlow : -2 ^ 63 ≤ n) (hhigh : n < 2 ^ 63) :
    (ofInt n).toInt? = some n := by
  have hword := word?_toDigits (n := n.natAbs) (by omega)
  simp only [toInt?, ofInt, hword, Option.isSome_none, Bool.or_self, Bool.false_eq_true, if_false,
    decide_eq_true_eq, Nat.pow_eq]
  split
  · rw [if_neg (by omega)]
    congr 1
    omega
  · congr 1
    omega

theorem isHalves_ofNat {n : Nat} (h : n < 2 ^ 52) : (Binary64.ofNat n).IsHalves (2 * n) :=
  Binary64.nearest_isHalves Nat.one_pos (by omega) (by omega)

/-- One rounded division makes a power that is in reach. -/
theorem timesPower_division {fuel mantissa m : Nat} {exponent e : Int} (power : Int)
    (hneg : power < 0) (hreach : power.natAbs ≤ 308)
    (hfactor : Binary64.nearest (Nat.pow 10 power.natAbs) 1 = .finite m e) :
    timesPower (fuel + 1) (.finite mantissa exponent) power =
      let value := Binary64.nearest
        ((Binary64.fraction mantissa exponent).1 * (Binary64.fraction m e).2)
        ((Binary64.fraction mantissa exponent).2 * (Binary64.fraction m e).1)
      if value = .infinite then none else some value := by
  have hsign : ¬ 0 ≤ power := by omega
  unfold timesPower
  simp only [hreach, hsign, ↓reduceIte, hfactor]

/-- Tenths of a number that is a multiple of five are halves, and the division by ten is exact. -/
theorem timesPower_tenth {halves : Nat} (h : halves < 2 ^ 49) (fuel : Nat) :
    ∃ magnitude, timesPower (fuel + 1) (.ofNat (5 * halves)) (-1) = some magnitude ∧
      magnitude.IsHalves halves := by
  obtain ⟨mantissa, exponent, heq, hvalue⟩ := isHalves_ofNat (n := 5 * halves) (by omega)
  obtain ⟨m, e, hten, hfactor⟩ := isHalves_ofNat (n := Nat.pow 10 (-1 : Int).natAbs) (by decide)
  have hden := Binary64.fraction_snd_pos mantissa exponent
  have hfden := Binary64.fraction_snd_pos m e
  have hnum : (Binary64.fraction mantissa exponent).1 =
      5 * halves * (Binary64.fraction mantissa exponent).2 := by linarith
  have hfnum : (Binary64.fraction m e).1 = 10 * (Binary64.fraction m e).2 := by
    simp only [Int.natAbs_neg, Int.natAbs_one, Nat.pow_eq, pow_one] at hfactor
    linarith
  have hquotient : (Binary64.nearest
      ((Binary64.fraction mantissa exponent).1 * (Binary64.fraction m e).2)
      ((Binary64.fraction mantissa exponent).2 * (Binary64.fraction m e).1)).IsHalves halves := by
    apply Binary64.nearest_isHalves
    · apply Nat.mul_pos hden
      omega
    · rw [hnum, hfnum]
      ring
    · omega
  obtain ⟨m', e', heq', hvalue'⟩ := hquotient
  rw [heq, timesPower_division (-1) (by decide) (by decide) hten, heq']
  exact ⟨_, by simp, m', e', rfl, hvalue'⟩

/-- The digits of a half-integer are those of five times the halves. -/
theorem toBinary64?_ofHalves {n : Int} (h : n.natAbs < 2 ^ 49) :
    ∃ magnitude, (ofHalves n).toBinary64? = some magnitude ∧ magnitude.IsHalves n.natAbs := by
  obtain ⟨magnitude, heq, hvalue⟩ := timesPower_tenth h 3
  refine ⟨magnitude, ?_, hvalue⟩
  have hdigit : (if n.natAbs % 2 = 0 then '0' else '5').toNat - '0'.toNat = n.natAbs % 2 * 5 := by
    rcases Nat.mod_two_eq_zero_or_one n.natAbs with hmod | hmod <;> rw [hmod] <;> rfl
  have hvalue : n.natAbs / 2 * 10 + n.natAbs % 2 * 5 = 5 * n.natAbs := by omega
  unfold toBinary64?
  simp only [ofHalves, significand_toDigits (show n.natAbs / 2 < 2 ^ 64 by omega),
    Option.getD_some, significand, hdigit, hvalue, Nat.pow_eq]
  rw [if_pos (by omega)]
  exact heq

end Numeral

namespace Json

theorem wellFormed_nat (n : Nat) : (nat n).WellFormed := by
  simpa [nat, WellFormed] using Numeral.wellFormed_ofNat n

theorem wellFormed_int (n : Int) : (int n).WellFormed := by
  simpa [int, WellFormed] using Numeral.wellFormed_ofInt n

theorem wellFormed_halves (n : Int) : (number (.ofHalves n)).WellFormed := by
  simpa [WellFormed] using Numeral.wellFormed_ofHalves n

theorem wellFormed_text (value : String) : (text value).WellFormed := by
  simp [text, WellFormed]

theorem natWithin?_nat {width n : Nat} (hwidth : width ≤ 64) (h : n < 2 ^ width) :
    (nat n).natWithin? width = some n := by
  have hword : n < 2 ^ 64 := lt_of_lt_of_le h (Nat.pow_le_pow_right (by decide) hwidth)
  have hread := Numeral.toInt?_ofNat hword
  have hle : (n : Int) ≤ (Nat.pow 2 width : Nat) - 1 := by
    rw [Nat.pow_eq]
    omega
  simp only [natWithin?, intWithin?, nat, number?, hread, Option.bind_eq_bind, Option.bind_some]
  rw [if_pos ⟨by omega, hle⟩, Option.map_some, Int.toNat_natCast]

theorem int32?_int (value : Int32) : (int value.toInt).int32? = some value := by
  have hlow := value.le_toInt
  have hhigh := value.toInt_lt
  have hread := Numeral.toInt?_ofInt (n := value.toInt) (by omega) (by omega)
  simp only [int32?, intWithin?, int, number?, hread, Option.bind_eq_bind, Option.bind_some]
  rw [if_pos (by omega), Option.map_some, Int32.ofInt_toInt]

end Json

namespace Coordinate

theorem roundToNat_isHalves {magnitude : Binary64} {n : Nat} (h : magnitude.IsHalves (2 * n)) :
    roundToNat magnitude = n := by
  obtain ⟨mantissa, exponent, rfl, hvalue⟩ := h
  have hden := Binary64.fraction_snd_pos mantissa exponent
  have hnum : (Binary64.fraction mantissa exponent).1 =
      n * (Binary64.fraction mantissa exponent).2 := by linarith
  simp only [roundToNat, roundHalfUp, hnum]
  generalize (Binary64.fraction mantissa exponent).2 = den at hden
  have hsplit : 2 * (n * den) + den = den + 2 * den * n := by ring
  rw [hsplit, Nat.add_mul_div_left _ _ (by omega), Nat.div_eq_of_lt (by omega), Nat.zero_add]

/-- The middle of an entity gives its first tile back. -/
theorem firstTile_middle {tile size : Int} {magnitude : Binary64}
    (hlow : -2 ^ 31 ≤ tile) (hhigh : tile < 2 ^ 31) (h : magnitude.IsHalves (2 * tile + size).natAbs) :
    firstTile ⟨decide (2 * tile + size < 0), magnitude⟩ size = tile := by
  obtain ⟨mantissa, exponent, rfl, hvalue⟩ := h
  have hden := Binary64.fraction_snd_pos mantissa exponent
  have hsigned : 2 * (if 2 * tile + size < 0 then -((Binary64.fraction mantissa exponent).1 : Int)
      else (Binary64.fraction mantissa exponent).1) =
        (2 * tile + size) * (Binary64.fraction mantissa exponent).2 := by
    zify at hvalue
    split
    · next hneg =>
      rw [abs_of_neg hneg] at hvalue
      linarith
    · next hpos =>
      rw [abs_of_nonneg (by omega)] at hvalue
      linarith
  unfold firstTile
  simp only [decide_eq_true_eq]
  rw [hsigned]
  generalize (Binary64.fraction mantissa exponent).2 = den at hden
  have hdifference : (2 * tile + size) * (den : Int) - size * den = 2 * tile * den := by ring
  rw [hdifference]
  have hhalves : 2 * (2 * tile * (den : Int)).natAbs = 2 * tile.natAbs * (2 * den) := by
    rw [Int.natAbs_mul, Int.natAbs_mul, Int.natAbs_natCast, show (2 : Int).natAbs = 2 from rfl]
    ring
  rw [roundToNat_isHalves (Binary64.nearest_isHalves (by omega) hhalves (by omega))]
  have hsign : 2 * tile * (den : Int) < 0 ↔ tile < 0 := by
    constructor
    · intro hneg
      nlinarith
    · intro hneg
      nlinarith
  simp only [hsign, clamp]
  omega

end Coordinate

end CircuitScript

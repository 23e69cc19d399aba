import LineShell.Double
import Mathlib.Algebra.Order.Field.Power
import Mathlib.Data.Rat.Cast.Order
import Mathlib.Tactic.FieldSimp
import Mathlib.Tactic.Linarith
import Mathlib.Tactic.NormNum
import Mathlib.Tactic.Positivity
import Mathlib.Tactic.Ring

/-!
# Rounding

What a quotient is rounded to.  The exponent follows the largest power of two below the quotient
(`floorLog2_spec`), and in units of that exponent the quotient is rounded to an integer, which is at
most half a unit above it (`roundQuotient_le`).

Two things follow.  A number that has a mantissa of 53 bits to begin with is not changed
(`ofQuotient_of_exact`), and of any other one it is known how far above it its rounding can be
(`unitsOf_le`).  Neither depends on how the quotient is written (`ofQuotient_mul_left`).
-/

namespace LineShell.Double

variable {num den : Nat}

/-! ## Powers of two -/

theorem cast_twoTo (n : Nat) : (twoTo n : Rat) = 2 ^ n := by
  rw [twoTo]
  exact Nat.cast_pow 2 n

theorem twoTo_pos (n : Nat) : 0 < twoTo n := Nat.pow_pos (by decide)

/-- One of the two powers is one. -/
theorem zpow_eq_div (e : Int) : (2 : Rat) ^ e = twoTo e.toNat / twoTo (-e).toNat := by
  rw [cast_twoTo, cast_twoTo]
  rcases Int.le_total 0 e with h | h
  · obtain ⟨n, rfl⟩ := Int.eq_ofNat_of_zero_le h
    simp
  · obtain ⟨n, hn⟩ := Int.eq_ofNat_of_zero_le (Int.neg_nonneg_of_nonpos h)
    obtain rfl : e = -(n : Int) := by omega
    simp

theorem zpow_two_pos (e : Int) : (0 : Rat) < 2 ^ e := zpow_pos (by norm_num) e

theorem zpow_two_le {a b : Int} (h : a ≤ b) : (2 : Rat) ^ a ≤ 2 ^ b :=
  zpow_le_zpow_right₀ (by norm_num) h

theorem lt_of_zpow_two_lt {a b : Int} (h : (2 : Rat) ^ a < 2 ^ b) : a < b :=
  (zpow_lt_zpow_iff_right₀ (by norm_num)).mp h

theorem zpow_two_succ (e : Int) : (2 : Rat) ^ (e + 1) = 2 ^ e * 2 := zpow_add_one₀ (by norm_num) e

/-! ## The largest power of two below a quotient -/

theorem floorLog2_spec (hnum : 0 < num) (hden : 0 < den) :
    (2 : Rat) ^ floorLog2 num den ≤ num / den ∧ (num / den : Rat) < 2 ^ (floorLog2 num den + 1) := by
  have hden' : (0 : Rat) < den := by exact_mod_cast hden
  -- both numbers lie between two powers of two, which leaves two exponents for the quotient
  have hnumLeast : ((2 : Rat) ^ (Nat.log2 num : Int)) ≤ num := by
    rw [zpow_natCast]
    exact_mod_cast Nat.log2_self_le hnum.ne'
  have hnumMost : (num : Rat) < 2 ^ ((Nat.log2 num : Int) + 1) := by
    rw [← Nat.cast_succ, zpow_natCast]
    exact_mod_cast Nat.lt_log2_self
  have hdenLeast : ((2 : Rat) ^ (Nat.log2 den : Int)) ≤ den := by
    rw [zpow_natCast]
    exact_mod_cast Nat.log2_self_le hden.ne'
  have hdenMost : (den : Rat) < 2 ^ ((Nat.log2 den : Int) + 1) := by
    rw [← Nat.cast_succ, zpow_natCast]
    exact_mod_cast Nat.lt_log2_self
  generalize hguess : (Nat.log2 num : Int) - (Nat.log2 den : Int) = guess
  have hleast : (2 : Rat) ^ (guess - 1) ≤ num / den := by
    rw [le_div_iff₀ hden']
    calc (2 : Rat) ^ (guess - 1) * den
        ≤ 2 ^ (guess - 1) * 2 ^ ((Nat.log2 den : Int) + 1) :=
          mul_le_mul_of_nonneg_left hdenMost.le (zpow_two_pos _).le
      _ = 2 ^ (Nat.log2 num : Int) := by
          rw [← zpow_add₀ (by norm_num)]
          congr 1
          omega
      _ ≤ num := hnumLeast
  have hmost : (num / den : Rat) < 2 ^ (guess + 1) := by
    rw [div_lt_iff₀ hden']
    calc (num : Rat) < 2 ^ ((Nat.log2 num : Int) + 1) := hnumMost
      _ = 2 ^ (guess + 1) * 2 ^ (Nat.log2 den : Int) := by
          rw [← zpow_add₀ (by norm_num)]
          congr 1
          omega
      _ ≤ 2 ^ (guess + 1) * den := mul_le_mul_of_nonneg_left hdenLeast (zpow_two_pos _).le
  have htest : den * twoTo guess.toNat ≤ num * twoTo (-guess).toNat ↔
      (2 : Rat) ^ guess ≤ num / den := by
    have hscale : (0 : Rat) < twoTo (-guess).toNat := by exact_mod_cast twoTo_pos _
    rw [zpow_eq_div, div_le_div_iff₀ hscale hden', ← Nat.cast_le (α := Rat)]
    push_cast
    rw [mul_comm]
  unfold floorLog2
  simp only [hguess, htest]
  split
  · exact ⟨by assumption, hmost⟩
  · refine ⟨hleast, ?_⟩
    rw [sub_add_cancel]
    exact lt_of_not_ge (by assumption)

/-- No other exponent has the quotient between its power of two and the next. -/
theorem floorLog2_eq (hnum : 0 < num) (hden : 0 < den) {e : Int} (hleast : (2 : Rat) ^ e ≤ num / den)
    (hmost : (num / den : Rat) < 2 ^ (e + 1)) : floorLog2 num den = e := by
  obtain ⟨hbelow, habove⟩ := floorLog2_spec hnum hden
  have hle := lt_of_zpow_two_lt (hbelow.trans_lt hmost)
  have hge := lt_of_zpow_two_lt (hleast.trans_lt habove)
  omega

/-- A quotient below a power of two has a smaller exponent. -/
theorem floorLog2_lt (hnum : 0 < num) (hden : 0 < den) {e : Int} (h : (num / den : Rat) < 2 ^ e) :
    floorLog2 num den < e :=
  lt_of_zpow_two_lt ((floorLog2_spec hnum hden).1.trans_lt h)

/-! ## The nearest integer -/

/-- Rounding adds half at most. -/
theorem roundQuotient_le (num : Nat) (hden : 0 < den) :
    2 * (roundQuotient num den * den) ≤ 2 * num + den := by
  have hsplit : num / den * den + num % den = num := Nat.div_add_mod' num den
  have hsucc : (num / den + 1) * den = num / den * den + den := Nat.succ_mul _ _
  have hrest : num % den < den := Nat.mod_lt num hden
  unfold roundQuotient
  dsimp only
  split
  · omega
  · split
    · omega
    · split <;> omega

/-- An integer is not changed. -/
theorem roundQuotient_mul_right (n : Nat) (hden : 0 < den) : roundQuotient (n * den) den = n := by
  simp [roundQuotient, Nat.mul_div_cancel n hden, hden]

theorem roundQuotient_mul_left {c : Nat} (hc : 0 < c) (num den : Nat) :
    roundQuotient (c * num) (c * den) = roundQuotient num den := by
  have htwice : 2 * (c * (num % den)) = c * (2 * (num % den)) := Nat.mul_left_comm 2 c _
  simp only [roundQuotient, Nat.mul_div_mul_left num den hc, Nat.mul_mod_mul_left, htwice,
    Nat.mul_lt_mul_left hc]

/-! ## The mantissa of a quotient -/

/-- The largest mantissa and more. -/
def mantissas : Nat := twoTo 53

/-- The exponent of the units that a quotient is rounded to. -/
def exponentOf (num den : Nat) : Int := max leastExponent (floorLog2 num den - 52)

/-- How many units a quotient is rounded to. -/
def unitsOf (num den : Nat) : Nat :=
  roundQuotient (num * twoTo (-exponentOf num den).toNat) (den * twoTo (exponentOf num den).toNat)

theorem ofQuotient_eq (negative : Bool) (hnum : 0 < num) :
    ofQuotient negative num den =
      if unitsOf num den = mantissas then
        if 971 ≤ exponentOf num den then .infinite negative
        else .finite negative (twoTo 52) (exponentOf num den + 1)
      else if 971 < exponentOf num den then .infinite negative
      else .finite negative (unitsOf num den) (exponentOf num den) := by
  rw [ofQuotient, if_neg hnum.ne']
  rfl

/-- The quotient in units. -/
theorem quotient_in_units (num den : Nat) (e : Int) :
    ((num * twoTo (-e).toNat : Nat) / (den * twoTo e.toNat : Nat) : Rat) = num / den / 2 ^ e := by
  have hpositive : (0 : Rat) < twoTo e.toNat := by exact_mod_cast twoTo_pos _
  have hnegative : (0 : Rat) < twoTo (-e).toNat := by exact_mod_cast twoTo_pos _
  rw [zpow_eq_div]
  push_cast
  field_simp

/-- A quotient is rounded up by half a unit at most. -/
theorem unitsOf_le (num : Nat) (hden : 0 < den) :
    (unitsOf num den : Rat) ≤ num / den / 2 ^ exponentOf num den + 1 / 2 := by
  rw [← quotient_in_units]
  have hunit : 0 < den * twoTo (exponentOf num den).toNat := Nat.mul_pos hden (twoTo_pos _)
  have hle := roundQuotient_le (num * twoTo (-exponentOf num den).toNat) hunit
  rw [← unitsOf] at hle
  have hunit' : (0 : Rat) < (den * twoTo (exponentOf num den).toNat : Nat) := by exact_mod_cast hunit
  rw [← sub_le_iff_le_add, le_div_iff₀ hunit']
  have hle' : (2 : Rat) * (unitsOf num den * (den * twoTo (exponentOf num den).toNat : Nat)) ≤
      2 * (num * twoTo (-exponentOf num den).toNat : Nat) +
        (den * twoTo (exponentOf num den).toNat : Nat) := by exact_mod_cast hle
  linarith

/-- The units are too many for a mantissa by one at most. -/
theorem unitsOf_le_mantissas (hnum : 0 < num) (hden : 0 < den) : unitsOf num den ≤ mantissas := by
  have hround := unitsOf_le num hden
  have hunits : (num / den / 2 ^ exponentOf num den : Rat) < 2 ^ (53 : Int) := by
    rw [div_lt_iff₀ (zpow_two_pos _), ← zpow_add₀ (by norm_num)]
    refine (floorLog2_spec hnum hden).2.trans_le (zpow_two_le ?_)
    have hle : floorLog2 num den - 52 ≤ exponentOf num den := le_max_right _ _
    omega
  have hcast : (mantissas : Rat) = 2 ^ (53 : Int) := cast_twoTo 53
  have hlt : (unitsOf num den : Rat) < (mantissas + 1 : Nat) := by
    push_cast
    rw [hcast]
    linarith
  exact Nat.lt_succ_iff.mp (by exact_mod_cast hlt)

/-! ## What a rounded number stands for -/

/-- A mantissa and an exponent as they occur in finite numbers. -/
structure Formed (mantissa : Nat) (exponent : Int) : Prop where
  mantissa : mantissa < mantissas
  least : leastExponent ≤ exponent
  most : exponent ≤ 971

/-- One more than the largest mantissa is a unit of the next exponent. -/
theorem carry (e : Int) : (twoTo 52 : Rat) * 2 ^ (e + 1) = mantissas * 2 ^ e := by
  rw [mantissas, cast_twoTo, cast_twoTo, zpow_two_succ]
  ring

/-- A quotient whose units have a small exponent is rounded to a number that stands for them. -/
theorem ofQuotient_of_units (negative : Bool) (hnum : 0 < num) (hden : 0 < den)
    (hmost : exponentOf num den ≤ 971) (hcarry : unitsOf num den = mantissas → exponentOf num den < 971) :
    ∃ m e, ofQuotient negative num den = .finite negative m e ∧ Formed m e ∧
      (m : Rat) * 2 ^ e = unitsOf num den * 2 ^ exponentOf num den := by
  have hleast : leastExponent ≤ exponentOf num den := le_max_left _ _
  rw [ofQuotient_eq negative hnum]
  by_cases hunits : unitsOf num den = mantissas
  · have hlt := hcarry hunits
    rw [if_pos hunits, if_neg (by omega)]
    refine ⟨_, _, rfl, ⟨by decide, by omega, by omega⟩, ?_⟩
    rw [carry, hunits]
  · have hlt : unitsOf num den < mantissas :=
      Nat.lt_of_le_of_ne (unitsOf_le_mantissas hnum hden) hunits
    rw [if_neg hunits, if_neg (by omega)]
    exact ⟨_, _, rfl, ⟨hlt, hleast, hmost⟩, rfl⟩

/-- A finite number that a quotient is rounded to is in range. -/
theorem formed_of_ofQuotient {negative sign : Bool} (hnum : 0 < num) (hden : 0 < den) {m : Nat} {e : Int}
    (h : ofQuotient negative num den = .finite sign m e) : sign = negative ∧ Formed m e := by
  have hleast : leastExponent ≤ exponentOf num den := le_max_left _ _
  rw [ofQuotient_eq negative hnum] at h
  split at h
  · split at h
    · cases h
    · cases h
      exact ⟨rfl, by decide, by omega, by omega⟩
  · rename_i hunits
    split at h
    · cases h
    · cases h
      have hlt := Nat.lt_of_le_of_ne (unitsOf_le_mantissas hnum hden) hunits
      exact ⟨rfl, hlt, hleast, by omega⟩

/-- A number with a mantissa and an exponent in range is not changed. -/
theorem ofQuotient_of_exact (negative : Bool) (hnum : 0 < num) (hden : 0 < den) {m : Nat} {e : Int}
    (hformed : Formed m e) (hvalue : (num / den : Rat) = m * 2 ^ e) :
    ∃ n f, ofQuotient negative num den = .finite negative n f ∧ (n : Rat) * 2 ^ f = m * 2 ^ e := by
  have hexponent : exponentOf num den ≤ e := by
    have hlt : floorLog2 num den < 53 + e := by
      apply floorLog2_lt hnum hden
      rw [hvalue, zpow_add₀ (by norm_num)]
      refine mul_lt_mul_of_pos_right ?_ (zpow_two_pos e)
      have hmantissa : (m : Rat) < mantissas := by exact_mod_cast hformed.mantissa
      rwa [mantissas, cast_twoTo] at hmantissa
    have hleast := hformed.least
    rw [exponentOf]
    omega
  obtain ⟨shift, hshift⟩ := Int.eq_ofNat_of_zero_le (Int.sub_nonneg_of_le hexponent)
  -- the units are finer than those of the number, which is so many of them
  have hunits : unitsOf num den = m * twoTo shift := by
    have hunit : 0 < den * twoTo (exponentOf num den).toNat := Nat.mul_pos hden (twoTo_pos _)
    have hunit' : (0 : Rat) < (den * twoTo (exponentOf num den).toNat : Nat) := by exact_mod_cast hunit
    have hall : num * twoTo (-exponentOf num den).toNat =
        m * twoTo shift * (den * twoTo (exponentOf num den).toNat) := by
      have hquotient := quotient_in_units num den (exponentOf num den)
      rw [hvalue, div_eq_iff hunit'.ne', mul_div_assoc, ← zpow_sub₀ (by norm_num), hshift] at hquotient
      rw [← Nat.cast_inj (R := Rat), hquotient]
      push_cast
      rw [cast_twoTo shift, zpow_natCast]
    rw [unitsOf, hall, roundQuotient_mul_right _ hunit]
  have hsame : (unitsOf num den : Rat) * 2 ^ exponentOf num den = m * 2 ^ e := by
    have he : e = shift + exponentOf num den := by omega
    rw [hunits, he, zpow_add₀ (by norm_num), zpow_natCast]
    push_cast
    rw [cast_twoTo]
    ring
  have hmost := hformed.most
  have hcarry : unitsOf num den = mantissas → exponentOf num den < 971 := by
    intro hfull
    refine lt_of_le_of_ne (by omega) fun hlast => ?_
    have hzero : shift = 0 := by omega
    rw [hunits, hzero] at hfull
    have hlt := hformed.mantissa
    rw [← hfull] at hlt
    simp [twoTo] at hlt
  obtain ⟨n, f, hround, -, hstands⟩ := ofQuotient_of_units negative hnum hden (by omega) hcarry
  exact ⟨n, f, hround, hstands.trans hsame⟩

/-- A quotient can be written in other terms. -/
theorem ofQuotient_mul_left (negative : Bool) {c : Nat} (hc : 0 < c) (hden : 0 < den) (num : Nat) :
    ofQuotient negative (c * num) (c * den) = ofQuotient negative num den := by
  rcases Nat.eq_zero_or_pos num with rfl | hnum
  · rfl
  have hvalue : ((c * num : Nat) / (c * den : Nat) : Rat) = num / den := by
    have hc' : (c : Rat) ≠ 0 := by exact_mod_cast hc.ne'
    push_cast
    exact mul_div_mul_left _ _ hc'
  have hlog : floorLog2 (c * num) (c * den) = floorLog2 num den := by
    obtain ⟨hleast, hmost⟩ := floorLog2_spec hnum hden
    apply floorLog2_eq (Nat.mul_pos hc hnum) (Nat.mul_pos hc hden)
    · rwa [hvalue]
    · rwa [hvalue]
  have hexponent : exponentOf (c * num) (c * den) = exponentOf num den := by
    rw [exponentOf, hlog, exponentOf]
  have hunits : unitsOf (c * num) (c * den) = unitsOf num den := by
    rw [unitsOf, hexponent, Nat.mul_assoc, Nat.mul_assoc, roundQuotient_mul_left hc, unitsOf]
  rw [ofQuotient_eq negative (Nat.mul_pos hc hnum), hexponent, hunits, ofQuotient_eq negative hnum]

end LineShell.Double

import LineShell.Proofs.Double.Rounding

/-!
# Deadlines on a rounded clock

A deadline is the sum of the clock and of a number of seconds, and it is compared with what the clock
shows later.  Each of the three is rounded.  For a clock that starts at zero the sum is not rounded once
more (`exists_zero_add`), so the deadline is reached at the latest when that many seconds have passed
(`le_ofMilliseconds`).

Up to `2 ^ 49` seconds the clock is fine enough not to show the deadline a twentieth of a second too
early (`not_le_ofMilliseconds`).
-/

namespace LineShell.Double

variable {m n : Nat} {e f : Int} {t : Nat} {d : Double}

theorem le_finite_iff :
    (finite false m e).le (finite false n f) = true ↔ (m : Rat) * 2 ^ e ≤ n * 2 ^ f := by
  simp [le, lt, toRat?, not_lt]

/-- A number of seconds is shown by the clock as it is rounded. -/
theorem ofMilliseconds_thousand (t : Nat) :
    ofMilliseconds ((1000 * t : Nat) : Int) = ofQuotient false t 1 := by
  have hsign : decide (((1000 * t : Nat) : Int) < 0) = false := decide_eq_false (by omega)
  have hround := ofQuotient_mul_left false (c := 1000) (by decide) Nat.one_pos t
  rwa [ofMilliseconds, hsign, Int.natAbs_natCast]

/-- An integer above zero that is not too large is rounded to a number in range. -/
theorem exists_of_ofInt? (ht : 1 ≤ t) (h : ofInt? (t : Int) = some d) :
    ∃ m e, d = .finite false m e ∧ Formed m e ∧ ofQuotient false t 1 = .finite false m e := by
  have hsign : decide ((t : Int) < 0) = false := decide_eq_false (by omega)
  rw [ofInt?, hsign, Int.natAbs_natCast] at h
  cases hround : ofQuotient false t 1 with
  | nan => rw [hround] at h; cases h
  | infinite negative => rw [hround] at h; cases h
  | finite sign m e =>
      rw [hround] at h
      cases h
      obtain ⟨rfl, hformed⟩ := formed_of_ofQuotient ht (by decide) hround
      exact ⟨m, e, rfl, hformed, rfl⟩

/-- An integer that is a mantissa is not rounded. -/
theorem ofQuotient_one (ht : 1 ≤ t) (hmost : t < mantissas) :
    ∃ m e, ofQuotient false t 1 = .finite false m e ∧ (m : Rat) * 2 ^ e = t := by
  have hexact : Formed t 0 := ⟨hmost, by decide, by decide⟩
  have hvalue : ((t : Rat) / (1 : Nat) : Rat) = t * 2 ^ (0 : Int) := by simp
  obtain ⟨m, e, hround, hstands⟩ := ofQuotient_of_exact false ht Nat.one_pos hexact hvalue
  exact ⟨m, e, hround, by rw [hstands, zpow_zero, mul_one]⟩

theorem exists_ofInt? (ht : 1 ≤ t) (hmost : t < mantissas) : ∃ d, ofInt? (t : Int) = some d := by
  obtain ⟨m, e, hround, -⟩ := ofQuotient_one ht hmost
  have hsign : decide ((t : Int) < 0) = false := decide_eq_false (by omega)
  rw [ofInt?, hsign, Int.natAbs_natCast, hround]
  exact ⟨_, rfl⟩

/-- Adding to a clock that shows zero rounds nothing. -/
theorem exists_zero_add (h : Formed m e) :
    ∃ n f, (ofMilliseconds 0).add (.finite false m e) = .finite false n f ∧
      (n : Rat) * 2 ^ f = m * 2 ^ e := by
  have hzero : ofMilliseconds 0 = .finite false 0 leastExponent := by rfl
  have hsum : (0 : Rat) * 2 ^ leastExponent + m * 2 ^ e = m * 2 ^ e := by ring
  rw [hzero]
  simp only [add, toRat?, Nat.cast_zero, hsum, Bool.false_eq_true, if_false, Bool.and_false]
  by_cases hnone : (m : Rat) * 2 ^ e = 0
  · rw [if_pos hnone]
    exact ⟨0, leastExponent, rfl, by rw [hnone]; simp⟩
  · have hpositive : (0 : Rat) < m * 2 ^ e :=
      lt_of_le_of_ne (mul_nonneg (Nat.cast_nonneg m) (zpow_two_pos e).le) (Ne.symm hnone)
    generalize hq : (m : Rat) * 2 ^ e = q at hnone hpositive ⊢
    have hnum : 0 < q.num := Rat.num_pos.mpr hpositive
    have hvalue : (q.num.natAbs / q.den : Rat) = m * 2 ^ e := by
      have habs : ((q.num.natAbs : Nat) : Rat) = (q.num : Rat) := by
        rw [← Int.cast_natCast, Int.natAbs_of_nonneg hnum.le]
      rw [habs, Rat.num_div_den, hq]
    rw [if_neg hnone, ofRat, decide_eq_false (not_lt.mpr hpositive.le)]
    obtain ⟨n, f, hround, hstands⟩ :=
      ofQuotient_of_exact false (Int.natAbs_pos.mpr hnum.ne') q.den_pos h hvalue
    exact ⟨n, f, hround, hstands.trans hq⟩

/-- The deadline is reached when the seconds have passed. -/
theorem le_ofMilliseconds (ht : 1 ≤ t) (h : ofInt? (t : Int) = some d) :
    ((ofMilliseconds 0).add d).le (ofMilliseconds ((1000 * t : Nat) : Int)) = true := by
  obtain ⟨m, e, rfl, hformed, hround⟩ := exists_of_ofInt? ht h
  obtain ⟨n, f, hsum, hstands⟩ := exists_zero_add hformed
  rw [ofMilliseconds_thousand, hround, hsum, le_finite_iff, hstands]

/-- What the clock shows before a moment of up to `2 ^ 49` seconds is less than a thirtieth of a second
too late. -/
theorem ofMilliseconds_le {ms : Nat} (hms : ms < 1000 * 2 ^ 49) :
    ∃ n f, ofMilliseconds (ms : Int) = .finite false n f ∧ (n : Rat) * 2 ^ f ≤ ms / 1000 + 1 / 32 := by
  have hsign : decide ((ms : Int) < 0) = false := decide_eq_false (by omega)
  rw [ofMilliseconds, hsign, Int.natAbs_natCast]
  rcases Nat.eq_zero_or_pos ms with rfl | hpositive
  · exact ⟨0, leastExponent, rfl, by norm_num⟩
  -- the unit is a sixteenth at most, and rounding moves by half of it
  have hmost : floorLog2 ms 1000 < 49 := by
    apply floorLog2_lt hpositive (by decide)
    have hms' : (ms : Rat) < 1000 * 2 ^ 49 := by exact_mod_cast hms
    rw [div_lt_iff₀ (by norm_num)]
    calc (ms : Rat) < 1000 * 2 ^ 49 := hms'
      _ = 2 ^ (49 : Int) * (1000 : Nat) := by norm_num
  have hexponent : exponentOf ms 1000 ≤ -4 := by
    rw [exponentOf, leastExponent]
    omega
  obtain ⟨n, f, hround, -, hstands⟩ :=
    ofQuotient_of_units false hpositive (by decide : 0 < 1000) (by omega) fun _ => by omega
  refine ⟨n, f, hround, ?_⟩
  have hunit := zpow_two_pos (exponentOf ms 1000)
  have hfine : (2 : Rat) ^ exponentOf ms 1000 ≤ 1 / 16 := by
    calc (2 : Rat) ^ exponentOf ms 1000 ≤ 2 ^ (-4 : Int) := zpow_two_le hexponent
      _ = 1 / 16 := by norm_num
  calc (n : Rat) * 2 ^ f = unitsOf ms 1000 * 2 ^ exponentOf ms 1000 := hstands
    _ ≤ ((ms : Rat) / (1000 : Nat) / 2 ^ exponentOf ms 1000 + 1 / 2) * 2 ^ exponentOf ms 1000 :=
        mul_le_mul_of_nonneg_right (unitsOf_le ms (by decide)) hunit.le
    _ = ms / 1000 + 1 / 2 * 2 ^ exponentOf ms 1000 := by
        rw [add_mul, div_mul_cancel₀ _ hunit.ne']
        norm_num
    _ ≤ ms / 1000 + 1 / 32 := by linarith

/-- Up to `2 ^ 49` seconds the deadline is not reached a twentieth of a second before. -/
theorem not_le_ofMilliseconds (ht : 1 ≤ t) (hmost : t ≤ 2 ^ 49) (h : ofInt? (t : Int) = some d) {ms : Nat}
    (hms : ms + 50 ≤ 1000 * t) : ((ofMilliseconds 0).add d).le (ofMilliseconds (ms : Int)) = false := by
  obtain ⟨m, e, rfl, hformed, hround⟩ := exists_of_ofInt? ht h
  obtain ⟨n, f, hsum, hstands⟩ := exists_zero_add hformed
  -- so small an integer is not rounded, and the deadline is the integer
  have hinteger : (n : Rat) * 2 ^ f = t := by
    obtain ⟨u, g, hexact, hvalue⟩ := ofQuotient_one ht (lt_of_le_of_lt hmost (by decide))
    rw [hround] at hexact
    cases hexact
    rw [hstands, hvalue]
  have hearly : ms < 1000 * 2 ^ 49 := by omega
  obtain ⟨u, g, hclock, hle⟩ := ofMilliseconds_le hearly
  rw [hsum, hclock, Bool.eq_false_iff, Ne, le_finite_iff, hinteger, not_le]
  have hms' : (ms : Rat) + 50 ≤ 1000 * t := by exact_mod_cast hms
  calc (u : Rat) * 2 ^ g ≤ ms / 1000 + 1 / 32 := hle
    _ < t := by linarith

end LineShell.Double

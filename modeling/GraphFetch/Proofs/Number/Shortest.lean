/-
The digits found for a double round back to it.

A grid of powers of ten offers the two neighbours of a magnitude, and a neighbour is
taken only if it passes the test.  With seventeen digits the grid is finer than the
interval of the magnitude is wide, so that one of the two lies inside: the search ends
with digits that passed the test, never with the answer it would give up with.
-/
import GraphFetch.Proofs.Number.Rounding

namespace GraphFetch

namespace Double

/-! ### The decimal exponent -/

/-- A positive number has as many digits as the power of ten below it says. -/
theorem pow_decimalLog_le {n : Nat} (hn : 0 < n) : 10 ^ decimalLog n ≤ n := by
  unfold decimalLog
  by_contra h
  have hlog : 0 < (Nat.toDigits 10 n).length - 1 := by
    rcases Nat.eq_zero_or_pos ((Nat.toDigits 10 n).length - 1) with hzero | hpos
    · rw [hzero] at h
      omega
    · exact hpos
  have := (Nat.length_toDigits_le_iff (b := 10) (by decide) hlog).mpr (Nat.lt_of_not_le h)
  omega

/-- Scaling up ends above the bound, if the fuel allows for it. -/
theorem le_scaleUp {n bound : Nat} : ∀ {fuel k : Nat}, bound ≤ n * 10 ^ (k + fuel) →
    bound ≤ n * 10 ^ scaleUp n bound fuel k := by
  intro fuel
  induction fuel with
  | zero => intro k h; exact h
  | succ fuel ih =>
      intro k h
      unfold scaleUp
      split
      · rename_i hle
        exact hle
      · exact ih (by rwa [Nat.add_right_comm, Nat.add_assoc])

/-- The power of ten of a positive magnitude is not above it. -/
theorem stepsOf_decimalExponent_le {steps : Nat} (hpos : 0 < steps) :
    stepsOf 1 (decimalExponent steps) ≤ steps := by
  unfold stepsOf decimalExponent
  rw [Nat.cast_one, one_mul]
  split
  · rename_i h
    have hquotient := pow_decimalLog_le (Nat.div_pos h one_pos)
    have hle := le_trans (Nat.mul_le_mul_right one hquotient) (Nat.div_mul_le_self steps one)
    rw [zpow_natCast]
    exact_mod_cast hle
  · have hone : one ≤ 10 ^ (1 + 330) := by decide +kernel
    have hle := le_scaleUp (le_trans hone (Nat.le_mul_of_pos_left _ hpos))
    generalize scaleUp steps one 330 1 = k at hle
    rw [zpow_neg, zpow_natCast, inv_mul_le_iff₀ (by positivity), mul_comm]
    exact_mod_cast hle

/-! ### A grid of powers of ten -/

theorem nearer_cases (tiesUp : Bool) (steps floor : Nat) (e : Int) :
    nearer tiesUp steps floor e = floor ∨ nearer tiesUp steps floor e = floor + 1 := by
  unfold nearer
  generalize distance steps floor e = low
  generalize distance steps (floor + 1) e = high
  by_cases h₁ : low.1 < high.1
  · exact Or.inl (if_pos h₁)
  · by_cases h₂ : high.1 < low.1
    · right
      simp only [if_neg h₁, if_pos h₂]
    · simp only [if_neg h₁, if_neg h₂]
      by_cases h₃ : (!tiesUp && decide (floor % 2 = 0)) = true
      · exact Or.inl (if_pos h₃)
      · exact Or.inr (if_neg h₃)

/-- The choice among two neighbours by a test: what it gives passed, and without a result neither
did, the lower one being zero apart. -/
private theorem choose_spec {test : Nat → Bool} {floor near : Nat}
    (hnear : near = floor ∨ near = floor + 1) {result : Option Nat}
    (h : (if test floor && floor != 0 then if test (floor + 1) then some near else some floor
      else if test (floor + 1) then some (floor + 1) else none) = result) :
    (∀ digits, result = some digits → test digits = true)
      ∧ (result = none → (test floor = false ∨ floor = 0) ∧ test (floor + 1) = false) := by
  subst h
  by_cases hzero : floor = 0
  · subst hzero
    cases hhigh : test (0 + 1) <;> simp_all
  · cases hlow : test floor <;> cases hhigh : test (floor + 1) <;>
      rcases hnear with rfl | rfl <;> simp [hzero, hlow, hhigh]

theorem onGrid_spec (tiesUp : Bool) (steps : Nat) (e : Int) :
    (∀ digits, onGrid tiesUp steps e = some digits → roundsBack steps digits e = true)
      ∧ (onGrid tiesUp steps e = none →
        (roundsBack steps (gridFloor steps e) e = false ∨ gridFloor steps e = 0)
          ∧ roundsBack steps (gridFloor steps e + 1) e = false) :=
  choose_spec (nearer_cases tiesUp steps (gridFloor steps e) e) rfl

/-- A magnitude lies between its two neighbours on a grid. -/
theorem gridFloor_bounds (steps : Nat) (e : Int) :
    stepsOf (gridFloor steps e) e ≤ steps ∧ steps < stepsOf (gridFloor steps e + 1) e := by
  obtain ⟨hdown, hup⟩ := powerOfTen_eq e
  have hdownQ : (0 : ℚ) < (powerOfTen e).2 := by exact_mod_cast hdown
  have hunit : (powerOfTen e).1 * one = (10 : ℚ) ^ e * one * (powerOfTen e).2 := by rw [hup]; ring
  have hupQ : (0 : ℚ) < (powerOfTen e).1 := by
    rw [hup]
    exact mul_pos (zpow_pos (by norm_num) e) hdownQ
  have hscale : ∀ digits : Nat, stepsOf digits e * (powerOfTen e).2
      = digits * ((powerOfTen e).1 * one : Nat) := by
    intro digits
    unfold stepsOf
    push_cast
    rw [hunit]
    ring
  have hpos : 0 < (powerOfTen e).1 * one := Nat.mul_pos (by exact_mod_cast hupQ) one_pos
  have hmod := Nat.div_add_mod (steps * (powerOfTen e).2) ((powerOfTen e).1 * one)
  have hlt := Nat.mod_lt (steps * (powerOfTen e).2) hpos
  constructor
  · rw [← mul_le_mul_iff_of_pos_right hdownQ, hscale]
    have : gridFloor steps e * ((powerOfTen e).1 * one) ≤ steps * (powerOfTen e).2 :=
      Nat.div_mul_le_self _ _
    exact_mod_cast this
  · rw [← mul_lt_mul_iff_of_pos_right hdownQ, hscale]
    have : steps * (powerOfTen e).2 < (gridFloor steps e + 1) * ((powerOfTen e).1 * one) :=
      Nat.lt_mul_of_div_lt (Nat.lt_succ_self _) hpos
    exact_mod_cast this

/-! ### Seventeen digits -/

/-- A magnitude's interval is wider than 10^-16 of it. -/
theorem lt_halfGaps (steps : Nat) :
    2 * steps < 10 ^ 16 * ((halfGaps steps).1 + (halfGaps steps).2) := by
  have hlt := lt_spacing steps
  rw [halfGaps_above]
  by_cases h : steps = Nat.pow 2 steps.log2 ∧ 1 < spacing steps
  · have heq := eq_spacing h.1 h.2
    omega
  · have hbelow : (halfGaps steps).1 = spacing steps := by
      unfold halfGaps
      dsimp only
      rw [if_neg h]
    omega

/-- A grid sixteen powers of ten finer. -/
theorem stepsOf_sub_sixteen (e : Int) : 10 ^ 16 * stepsOf 1 (e - 16) = stepsOf 1 e := by
  unfold stepsOf
  generalize (one : ℚ) = unit
  rw [zpow_sub₀ (by norm_num)]
  norm_num
  ring

/-- **With seventeen digits one of the two neighbours rounds back.** -/
theorem onGrid_seventeen (tiesUp : Bool) {steps : Nat} (hpos : 0 < steps) :
    onGrid tiesUp steps (decimalExponent steps - 16) ≠ none := by
  intro hnone
  obtain ⟨hlow, hhigh⟩ := (onGrid_spec _ _ _).2 hnone
  have hlead := stepsOf_decimalExponent_le hpos
  rw [← stepsOf_sub_sixteen] at hlead
  generalize decimalExponent steps - 16 = e at *
  obtain ⟨hle, hlt⟩ := gridFloor_bounds steps e
  generalize gridFloor steps e = floor at *
  have hnext : stepsOf (floor + 1) e = stepsOf floor e + stepsOf 1 e := by
    unfold stepsOf
    push_cast
    ring
  have hunit : 0 < stepsOf 1 e := by
    unfold stepsOf
    exact mul_pos (mul_pos (by norm_num) (zpow_pos (by norm_num) e)) (by exact_mod_cast one_pos)
  have hwide : (2 * steps : ℚ) < 10 ^ 16 * ((halfGaps steps).1 + (halfGaps steps).2) := by
    exact_mod_cast lt_halfGaps steps
  have hbelow : (0 : ℚ) < (halfGaps steps).1 := by exact_mod_cast halfGaps_below_pos steps
  have habove : (0 : ℚ) < (halfGaps steps).2 := by
    rw [halfGaps_above]
    exact_mod_cast spacing_pos steps
  have hzero : floor ≠ 0 := by
    rintro rfl
    have : stepsOf 0 e = 0 := by rw [stepsOf, Nat.cast_zero, zero_mul, zero_mul]
    linarith
  by_cases hnear : (2 * steps : ℚ) < 2 * stepsOf floor e + (halfGaps steps).1
  · have hback := (roundsBack_iff _ _ _).mpr (RoundsTo.of_lt hnear (by linarith))
    rcases hlow with hlow | hlow
    · exact absurd (hback.symm.trans hlow) (by simp)
    · exact hzero hlow
  · have hback := (roundsBack_iff _ _ _).mpr
      (RoundsTo.of_lt (x := stepsOf (floor + 1) e) (by linarith) (by linarith))
    exact absurd (hback.symm.trans hhigh) (by simp)

/-! ### The search -/

/-- The search ends on a grid that offers something, if it comes to one. -/
theorem search_roundsBack {tiesUp : Bool} {steps : Nat} {exponent : Int} {last : Nat}
    (hlast : onGrid tiesUp steps (exponent - (last : Int) + 1) ≠ none) :
    ∀ {fuel count : Nat}, count ≤ last → last < count + fuel →
      let decimal := search tiesUp steps exponent fuel count
      roundsBack steps decimal.digits decimal.exponent = true := by
  intro fuel
  induction fuel with
  | zero => intro count h₁ h₂; omega
  | succ fuel ih =>
      intro count h₁ h₂
      unfold search
      dsimp only
      split
      · rename_i digits hdigits
        exact (onGrid_spec _ _ _).1 digits hdigits
      · rename_i hnone
        have hne : count ≠ last := fun heq => hlast (heq ▸ hnone)
        exact ih (by omega) (by omega)

/-- **The shortest decimal of a positive magnitude rounds to it.** -/
theorem shortest_roundsTo (tiesUp : Bool) {steps : Nat} (hpos : 0 < steps) :
    RoundsTo steps (stepsOf (shortest tiesUp steps).digits (shortest tiesUp steps).exponent) := by
  have hlast : onGrid tiesUp steps (decimalExponent steps - ((17 : Nat) : Int) + 1) ≠ none := by
    have : decimalExponent steps - ((17 : Nat) : Int) + 1 = decimalExponent steps - 16 := by omega
    rw [this]
    exact onGrid_seventeen tiesUp hpos
  rw [← roundsBack_iff]
  exact search_roundsBack hlast (by decide) (by decide)

end Double

end GraphFetch

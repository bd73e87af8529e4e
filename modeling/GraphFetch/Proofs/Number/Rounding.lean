/-
The numbers that round to a double.

A magnitude stands for all the reals between the midpoints to its two neighbours, and
for a midpoint itself if its significand is even.  Of two magnitudes on the grid the
lower one ends where the other begins, at the earliest; and where they touch, one of
the two significands is odd.  So no number rounds to both of them.
-/
import GraphFetch.Number.Shortest
import Mathlib.Tactic.Linarith
import Mathlib.Tactic.Positivity
import Mathlib.Tactic.FieldSimp
import Mathlib.Tactic.Ring
import Mathlib.Algebra.Order.Field.Rat

namespace GraphFetch

namespace Double

/-! ### The grid -/

/-- Whether a magnitude is one that a binary64 value can have: a multiple of its spacing. -/
def OnGrid (steps : Nat) : Prop := spacing steps ∣ steps

instance (steps : Nat) : Decidable (OnGrid steps) :=
  inferInstanceAs (Decidable (spacing steps ∣ steps))

theorem one_pos : 0 < one := by decide +kernel

theorem spacing_eq (steps : Nat) : spacing steps = 2 ^ (steps.log2 - 52) := rfl

theorem spacing_pos (steps : Nat) : 0 < spacing steps := Nat.two_pow_pos _

/-- A magnitude keeps at most 53 significant bits. -/
theorem lt_spacing (steps : Nat) : steps < 2 ^ 53 * spacing steps := by
  rw [spacing_eq, ← Nat.pow_add]
  have h := Nat.lt_log2_self (n := steps)
  exact lt_of_lt_of_le h (Nat.pow_le_pow_right (by decide) (by omega))

/-- A power of two with more than 53 bits is 2^52 spacings. -/
theorem eq_spacing {steps : Nat} (hpow : steps = Nat.pow 2 steps.log2) (hgap : 1 < spacing steps) :
    steps = 2 ^ 52 * spacing steps := by
  have hlog : 52 < steps.log2 := by
    by_contra h
    rw [spacing_eq, Nat.sub_eq_zero_of_le (by omega)] at hgap
    exact absurd hgap (by decide)
  rw [spacing_eq, ← Nat.pow_add]
  exact hpow.trans (congrArg (Nat.pow 2) (by omega))

/-! ### Intervals -/

theorem halfGaps_above (steps : Nat) : (halfGaps steps).2 = spacing steps := by
  unfold halfGaps
  dsimp only
  split <;> rfl

theorem halfGaps_below_le (steps : Nat) : (halfGaps steps).1 ≤ spacing steps := by
  unfold halfGaps
  dsimp only
  split
  · exact Nat.div_le_self _ _
  · exact Nat.le_refl _

/-- Half the spacing below a power of two that has a smaller one below it. -/
theorem halfGaps_below_pow {steps : Nat} (hpow : steps = 2 ^ steps.log2)
    (hgap : 1 < spacing steps) :
    (halfGaps steps).1 = spacing steps / 2 := by
  unfold halfGaps
  dsimp only
  rw [if_pos ⟨hpow, hgap⟩]

theorem halfGaps_below_pos (steps : Nat) : 0 < (halfGaps steps).1 := by
  unfold halfGaps
  dsimp only
  split
  · rename_i h
    exact Nat.div_pos h.2 (by decide)
  · exact spacing_pos steps

/-- Whether a number of steps rounds to a magnitude. -/
structure RoundsTo (steps : Nat) (x : ℚ) : Prop where
  lower : 2 * steps ≤ 2 * x + (halfGaps steps).1
  upper : 2 * x ≤ 2 * steps + (halfGaps steps).2
  odd : evenSignificand steps = false →
    2 * steps ≠ 2 * x + (halfGaps steps).1 ∧ 2 * x ≠ 2 * steps + (halfGaps steps).2

/-- What lies between the midpoints rounds to the magnitude. -/
theorem RoundsTo.of_lt {steps : Nat} {x : ℚ} (hlower : 2 * steps < 2 * x + (halfGaps steps).1)
    (hupper : 2 * x < 2 * steps + (halfGaps steps).2) : RoundsTo steps x :=
  ⟨hlower.le, hupper.le, fun _ => ⟨hlower.ne, hupper.ne⟩⟩

/-- Zero rounds to zero. -/
theorem RoundsTo.zero : RoundsTo 0 0 := by
  have hbelow : (0 : ℚ) < (halfGaps 0).1 := by exact_mod_cast halfGaps_below_pos 0
  have habove : (0 : ℚ) < (halfGaps 0).2 := by
    rw [halfGaps_above]
    exact_mod_cast spacing_pos 0
  refine RoundsTo.of_lt ?_ ?_
  · rw [Nat.cast_zero]
    linarith
  · rw [Nat.cast_zero]
    linarith

/-- Whether the interval of one magnitude ends before that of another begins, or the two touch and
one of them is open. -/
def EndsBefore (s t : Nat) : Prop :=
  2 * s + (halfGaps s).2 + (halfGaps t).1 < 2 * t
    ∨ (2 * s + (halfGaps s).2 + (halfGaps t).1 = 2 * t
      ∧ ¬(evenSignificand s = true ∧ evenSignificand t = true))

/-- Neighbouring significands are not both even. -/
theorem not_both_even {gap m n : Nat} (hgap : 0 < gap) (hn : n = m + 1) :
    ¬((gap * m / gap % 2 == 0) = true ∧ (gap * n / gap % 2 == 0) = true) := by
  rw [Nat.mul_div_cancel_left m hgap, Nat.mul_div_cancel_left n hgap]
  simp only [beq_iff_eq]
  omega

/-- On a common grid the lower interval ends where the other begins, or before. -/
private theorem apart_of_spacing_eq {s t : Nat} (hlt : s < t) (hs : OnGrid s) (ht : OnGrid t)
    (heq : spacing s = spacing t) : EndsBefore s t := by
  obtain ⟨m, hm⟩ := hs
  obtain ⟨n, hn⟩ := ht
  have hbelow := halfGaps_below_le t
  have hpos := spacing_pos t
  unfold EndsBefore
  rw [halfGaps_above, heq]
  rw [heq] at hm
  have hmn : m < n := by
    by_contra h
    have := Nat.mul_le_mul_left (spacing t) (Nat.le_of_not_lt h)
    omega
  have hstep : spacing t * (m + 1) ≤ spacing t * n := Nat.mul_le_mul_left _ hmn
  rw [Nat.mul_succ] at hstep
  by_cases hnext : n = m + 1
  · by_cases hstrict : 2 * s + spacing t + (halfGaps t).1 < 2 * t
    · exact Or.inl hstrict
    · right
      refine ⟨by omega, ?_⟩
      have hodd := not_both_even hpos hnext
      rw [← hm, ← hn] at hodd
      unfold evenSignificand
      rw [heq]
      exact hodd
  · have hfar : spacing t * (m + 2) ≤ spacing t * n := Nat.mul_le_mul_left _ (by omega)
    left
    have : spacing t * (m + 2) = spacing t * m + 2 * spacing t := by ring
    omega

/-- Below a power of two the spacing is smaller, and the interval of the power itself begins only
half as far below it as it ends above. -/
private theorem apart_of_pow {s t : Nat} (hs : OnGrid s) (hlog : s.log2 < t.log2)
    (hgap : 52 < t.log2) (hpow : t = 2 ^ t.log2) (hwide : t = 2 ^ 52 * spacing t)
    (hfine : 2 * spacing s ≤ spacing t) : EndsBefore s t := by
  have hpos := spacing_pos s
  have hlow : s < t := by
    rw [hpow]
    exact lt_of_lt_of_le Nat.lt_log2_self (Nat.pow_le_pow_right (by decide) hlog)
  unfold EndsBefore
  rw [halfGaps_above, halfGaps_below_pow hpow (by omega)]
  by_cases hnext : s.log2 + 1 = t.log2
  · have hdouble : spacing t = 2 * spacing s := by
      rw [spacing_eq, spacing_eq, Nat.mul_comm 2, ← Nat.pow_succ]
      congr 1
      omega
    have hmultiple : t = spacing s * 2 ^ 53 := by omega
    have hstep : spacing s ≤ t - s :=
      Nat.le_of_dvd (by omega) (Nat.dvd_sub (hmultiple ▸ Nat.dvd_mul_right _ _) hs)
    by_cases hend : s + spacing s = t
    · right
      refine ⟨by omega, fun heven => ?_⟩
      have hm : s = spacing s * (2 ^ 53 - 1) := by omega
      have hodd := heven.1
      unfold evenSignificand at hodd
      rw [Nat.div_eq_of_eq_mul_right hpos hm] at hodd
      exact absurd hodd (by decide)
    · left
      omega
  · have hhalf : 2 * s < t := by
      have h := Nat.lt_log2_self (n := s)
      have hle : 2 ^ (s.log2 + 1) * 2 ≤ t := by
        rw [← Nat.pow_succ, hpow]
        exact Nat.pow_le_pow_right (by decide) (by omega)
      omega
    left
    omega

/-- So it is where the spacing grows between the two. -/
private theorem apart_of_log2_lt {s t : Nat} (hs : OnGrid s) (ht : OnGrid t)
    (hlog : s.log2 < t.log2) (hgap : 52 < t.log2) : EndsBefore s t := by
  -- The power of two between them is a multiple of both spacings.
  set power := 2 ^ t.log2 with hpower
  have hbelow := halfGaps_below_le t
  have hle : power ≤ t := Nat.log2_self_le (by rintro rfl; simp at hgap)
  have hlow : s < power :=
    lt_of_lt_of_le Nat.lt_log2_self (Nat.pow_le_pow_right (by decide) (by omega))
  have hfine : 2 * spacing s ≤ spacing t := by
    rw [spacing_eq, spacing_eq, Nat.mul_comm, ← Nat.pow_succ]
    exact Nat.pow_le_pow_right (by decide) (by omega)
  have hwide : power = 2 ^ 52 * spacing t := by
    rw [spacing_eq, ← Nat.pow_add, hpower]
    congr 1
    omega
  rcases Nat.lt_or_eq_of_le hle with hlt | heq
  · have hstep : spacing t ≤ t - power :=
      Nat.le_of_dvd (by omega) (Nat.dvd_sub ht (hwide ▸ Nat.dvd_mul_left _ _))
    left
    rw [halfGaps_above]
    omega
  · exact apart_of_pow hs hlog hgap heq.symm (heq.symm.trans hwide) hfine

/-- Of two magnitudes the lower interval ends first. -/
theorem intervals_apart {s t : Nat} (hlt : s < t) (hs : OnGrid s) (ht : OnGrid t) :
    EndsBefore s t := by
  have hlog : s.log2 ≤ t.log2 := by
    have h := (Nat.log2_lt (n := t) (k := t.log2 + 1) (by omega)).mp (Nat.lt_succ_self _)
    by_cases hzero : s = 0
    · rw [hzero, Nat.log2_zero]
      exact Nat.zero_le _
    · exact Nat.le_of_lt_succ ((Nat.log2_lt hzero).mpr (lt_trans hlt h))
  by_cases heq : spacing s = spacing t
  · exact apart_of_spacing_eq hlt hs ht heq
  · have hne : s.log2 - 52 ≠ t.log2 - 52 := fun h => heq (by rw [spacing_eq, spacing_eq, h])
    exact apart_of_log2_lt hs ht (by omega) (by omega)

/-- **No number rounds to two magnitudes.** -/
theorem RoundsTo.unique {s t : Nat} {x : ℚ} (hs : OnGrid s) (ht : OnGrid t) (hxs : RoundsTo s x)
    (hxt : RoundsTo t x) : s = t := by
  have hnot : ∀ {s t : Nat}, OnGrid s → OnGrid t → RoundsTo s x → RoundsTo t x → ¬s < t := by
    intro s t hs ht hxs hxt hlt
    have hupper := hxs.upper
    have hlower := hxt.lower
    rcases intervals_apart hlt hs ht with h | ⟨h, hodd⟩
    · have : (2 * s + (halfGaps s).2 + (halfGaps t).1 : ℚ) < 2 * t := by exact_mod_cast h
      linarith
    · have hsum : (2 * s + (halfGaps s).2 + (halfGaps t).1 : ℚ) = 2 * t := by exact_mod_cast h
      by_cases heven : evenSignificand s = true
      · exact (hxt.odd (by simpa [heven] using hodd)).1 (by linarith)
      · exact (hxs.odd (by simpa using heven)).2 (by linarith)
  have h₁ := hnot hs ht hxs hxt
  have h₂ := hnot ht hs hxt hxs
  omega

/-! ### The test for rounding -/

/-- `10^e` is the quotient of the two parts of its fraction. -/
theorem powerOfTen_eq (e : Int) :
    0 < (powerOfTen e).2 ∧ ((powerOfTen e).1 : ℚ) = (10 : ℚ) ^ e * (powerOfTen e).2 := by
  unfold powerOfTen
  split
  · rename_i h
    refine ⟨Nat.one_pos, ?_⟩
    simp only [Nat.pow_eq, Nat.cast_pow, Nat.cast_ofNat, Nat.cast_one, mul_one]
    rw [← zpow_natCast, Int.toNat_of_nonneg h]
  · rename_i h
    refine ⟨Nat.pow_pos (by decide), ?_⟩
    simp only [Nat.pow_eq, Nat.cast_pow, Nat.cast_ofNat, Nat.cast_one]
    rw [← zpow_natCast, Int.toNat_of_nonneg (by omega), zpow_neg]
    exact (mul_inv_cancel₀ (zpow_ne_zero _ (by norm_num))).symm

/-- A decimal in steps. -/
def stepsOf (digits : Nat) (e : Int) : ℚ := digits * (10 : ℚ) ^ e * one

/-- Quotients by a common denominator compare as their numerators do. -/
private theorem compare_scaled {a b : ℚ} {m n down : Nat} (hdown : 0 < down)
    (hm : (m : ℚ) = a * down) (hn : (n : ℚ) = b * down) :
    (a ≤ b ↔ m ≤ n) ∧ (a = b ↔ m = n) := by
  have hpos : (0 : ℚ) < down := by exact_mod_cast hdown
  rw [← mul_le_mul_iff_of_pos_right hpos, ← mul_left_inj' hpos.ne', ← hm, ← hn]
  exact ⟨Nat.cast_le, Nat.cast_inj⟩

/-- Rounding to a magnitude, with everything multiplied by a common denominator. -/
private theorem roundsTo_iff_scaled {steps there here down : Nat} {x : ℚ} (hdown : 0 < down)
    (hthere : (there : ℚ) = 2 * x * down) (hhere : (here : ℚ) = 2 * steps * down) :
    RoundsTo steps x
      ↔ here ≤ there + (halfGaps steps).1 * down ∧ there ≤ here + (halfGaps steps).2 * down
        ∧ (evenSignificand steps = false →
          here ≠ there + (halfGaps steps).1 * down ∧ there ≠ here + (halfGaps steps).2 * down) := by
  have hlower := compare_scaled (b := 2 * x + (halfGaps steps).1)
    (n := there + (halfGaps steps).1 * down) hdown hhere (by push_cast; rw [hthere]; ring)
  have hupper := compare_scaled (b := 2 * steps + (halfGaps steps).2)
    (n := here + (halfGaps steps).2 * down) hdown hthere (by push_cast; rw [hhere]; ring)
  constructor
  · intro h
    exact ⟨hlower.1.mp h.lower, hupper.1.mp h.upper, fun hodd =>
      ⟨fun heq => (h.odd hodd).1 (hlower.2.mpr heq), fun heq => (h.odd hodd).2 (hupper.2.mpr heq)⟩⟩
  · rintro ⟨hl, hu, hodd⟩
    exact ⟨hlower.1.mpr hl, hupper.1.mpr hu, fun h =>
      ⟨fun heq => (hodd h).1 (hlower.2.mp heq), fun heq => (hodd h).2 (hupper.2.mp heq)⟩⟩

/-- The distance of two numbers and the room on either side, with the sides told apart. -/
private theorem apart_iff {there here below above : Nat} (hbelow : 0 < below) (habove : 0 < above)
    (even : Bool) :
    ((let (apart, isBelow) := if there < here then (here - there, true) else (there - here, false)
      let room := if isBelow then below else above
      if even then decide (apart ≤ room) else decide (apart < room)) = true)
      ↔ here ≤ there + below ∧ there ≤ here + above
        ∧ (even = false → here ≠ there + below ∧ there ≠ here + above) := by
  by_cases hside : there < here
  · cases even
    · simp [hside]
      omega
    · simp [hside]
      omega
  · cases even
    · simp [hside]
      omega
    · simp [hside]
      omega

theorem distance_eq (steps candidate : Nat) (e : Int) :
    distance steps candidate e =
      if 2 * candidate * (powerOfTen e).1 * one < 2 * steps * (powerOfTen e).2 then
        (2 * steps * (powerOfTen e).2 - 2 * candidate * (powerOfTen e).1 * one, true)
      else (2 * candidate * (powerOfTen e).1 * one - 2 * steps * (powerOfTen e).2, false) := rfl

theorem roundsBack_eq {steps candidate apart : Nat} {e : Int} {isBelow : Bool}
    (hdistance : distance steps candidate e = (apart, isBelow)) :
    roundsBack steps candidate e =
      (let room := (if isBelow then (halfGaps steps).1 else (halfGaps steps).2) * (powerOfTen e).2
      if evenSignificand steps then decide (apart ≤ room) else decide (apart < room)) := by
  rw [roundsBack, hdistance]

/-- **The test for rounding back decides whether the decimal rounds to the magnitude.** -/
theorem roundsBack_iff (steps candidate : Nat) (e : Int) :
    roundsBack steps candidate e = true ↔ RoundsTo steps (stepsOf candidate e) := by
  obtain ⟨hdown, hup⟩ := powerOfTen_eq e
  have hthere : ((2 * candidate * (powerOfTen e).1 * one : Nat) : ℚ)
      = 2 * stepsOf candidate e * (powerOfTen e).2 := by
    unfold stepsOf
    push_cast
    rw [hup]
    ring
  have hhere : ((2 * steps * (powerOfTen e).2 : Nat) : ℚ) = 2 * steps * (powerOfTen e).2 := by
    push_cast
    rfl
  have hdistance := distance_eq steps candidate e
  rw [roundsTo_iff_scaled hdown hthere hhere,
    ← apart_iff (Nat.mul_pos (halfGaps_below_pos steps) hdown)
      (Nat.mul_pos (halfGaps_above steps ▸ spacing_pos steps) hdown)]
  -- As products of these the distances would be evaluated.
  generalize 2 * candidate * (powerOfTen e).1 * one = there at hdistance ⊢
  generalize 2 * steps * (powerOfTen e).2 = here at hdistance ⊢
  by_cases hside : there < here
  · rw [if_pos hside] at hdistance ⊢
    rw [roundsBack_eq hdistance]
    simp only [if_true]
  · rw [if_neg hside] at hdistance ⊢
    rw [roundsBack_eq hdistance]
    simp only [if_false, Bool.false_eq_true]

end Double

end GraphFetch

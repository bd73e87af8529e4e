/-
Integers as doubles.

Rounding to the nearest double keeps the order of integers, if not always strictly, and changes no
integer that has a double of its own, in particular none up to 2^53.  So an integer of smaller
magnitude is told apart from all others: what lies above it stays at or above its successor, which
is exact as well.  From 2^53 on there are neighbouring integers that share a double.

Rounding is monotone since it is so on one grid, and since the power of two between two grids is on
both of them.
-/
import GraphFetch.Proofs.Number.Rounding

namespace GraphFetch

namespace Double

/-! ### Rounding a quotient -/

/-- A quotient is rounded down, or up if there is a remainder. -/
theorem divNearest_cases (numerator : Nat) {denominator : Nat} (hpos : 0 < denominator) :
    divNearest numerator denominator = numerator / denominator
      ∨ (divNearest numerator denominator = numerator / denominator + 1
        ∧ numerator % denominator ≠ 0) := by
  unfold divNearest
  dsimp only
  generalize numerator / denominator = floor
  generalize numerator % denominator = rest
  split_ifs <;> omega

/-- A quotient that is at most a whole number is not rounded to more. -/
theorem divNearest_le {numerator denominator bound : Nat} (hpos : 0 < denominator)
    (h : numerator ≤ bound * denominator) : divNearest numerator denominator ≤ bound := by
  have hfloor : numerator / denominator ≤ bound := Nat.div_le_of_le_mul (Nat.mul_comm .. ▸ h)
  rcases divNearest_cases numerator hpos with hdown | ⟨hup, hrest⟩
  · omega
  · have hne : numerator / denominator ≠ bound := by
      intro heq
      have hsplit := Nat.div_add_mod' numerator denominator
      rw [heq] at hsplit
      omega
    omega

/-- A quotient that is at least a whole number is not rounded to less. -/
theorem le_divNearest {numerator denominator bound : Nat} (hpos : 0 < denominator)
    (h : bound * denominator ≤ numerator) : bound ≤ divNearest numerator denominator := by
  have hfloor : bound ≤ numerator / denominator := (Nat.le_div_iff_mul_le hpos).mpr h
  rcases divNearest_cases numerator hpos with hdown | ⟨hup, -⟩
  · omega
  · omega

theorem divNearest_mono {m n denominator : Nat} (h : m ≤ n) :
    divNearest m denominator ≤ divNearest n denominator := by
  have hdiv : m / denominator ≤ n / denominator := Nat.div_le_div_right h
  have hm := Nat.div_add_mod m denominator
  have hn := Nat.div_add_mod n denominator
  rcases Nat.lt_or_eq_of_le hdiv with hlt | heq
  · unfold divNearest
    dsimp only
    split_ifs <;> omega
  · rw [heq] at hm
    unfold divNearest
    dsimp only
    rw [heq]
    split_ifs <;> omega

/-! ### Rounding to the grid -/

/-- A whole number of steps, rounded to the grid at its magnitude. -/
theorem nearest_one (steps : Nat) :
    nearest steps 1 = divNearest steps (spacing steps) * spacing steps := by
  unfold nearest
  dsimp only
  rw [Nat.div_one, Nat.one_mul]

theorem nearest_le {steps bound : Nat} (hgrid : spacing steps ∣ bound) (h : steps ≤ bound) :
    nearest steps 1 ≤ bound := by
  obtain ⟨count, rfl⟩ := hgrid
  rw [nearest_one, Nat.mul_comm (spacing steps)]
  exact Nat.mul_le_mul_right _ (divNearest_le (spacing_pos steps) (Nat.mul_comm .. ▸ h))

theorem le_nearest {steps bound : Nat} (hgrid : spacing steps ∣ bound) (h : bound ≤ steps) :
    bound ≤ nearest steps 1 := by
  obtain ⟨count, rfl⟩ := hgrid
  rw [nearest_one, Nat.mul_comm (spacing steps)]
  exact Nat.mul_le_mul_right _ (le_divNearest (spacing_pos steps) (Nat.mul_comm .. ▸ h))

/-- What is on the grid is not changed. -/
theorem nearest_self {steps : Nat} (h : OnGrid steps) : nearest steps 1 = steps :=
  Nat.le_antisymm (nearest_le h le_rfl) (le_nearest h le_rfl)

/-- A power of two is on each grid of lower magnitudes, and on its own. -/
theorem spacing_dvd_pow {steps k : Nat} (h : steps.log2 ≤ k) : spacing steps ∣ 2 ^ k := by
  rw [spacing_eq]
  exact Nat.pow_dvd_pow 2 (by omega)

/-- **Rounding keeps the order.** -/
theorem nearest_mono {m n : Nat} (h : m ≤ n) : nearest m 1 ≤ nearest n 1 := by
  by_cases hm : m = 0
  · subst hm
    rw [nearest_self (show OnGrid 0 from Nat.dvd_zero _)]
    exact Nat.zero_le _
  have hn : n ≠ 0 := by omega
  rcases Nat.lt_or_ge m.log2 n.log2 with hlog | hlog
  · -- The power of two at the foot of the upper grid lies between the two.
    have hbetween : m ≤ 2 ^ n.log2 :=
      Nat.le_of_lt (lt_of_lt_of_le Nat.lt_log2_self (Nat.pow_le_pow_right (by decide) hlog))
    calc nearest m 1
        ≤ 2 ^ n.log2 := nearest_le (spacing_dvd_pow hlog.le) hbetween
      _ ≤ nearest n 1 := le_nearest (spacing_dvd_pow le_rfl) (Nat.log2_self_le hn)
  · have heq : m.log2 = n.log2 := by
      have hlt := (Nat.log2_lt hm).mpr (lt_of_le_of_lt h (Nat.lt_log2_self (n := n)))
      omega
    have hspacing : spacing m = spacing n := by rw [spacing_eq, spacing_eq, heq]
    rw [nearest_one, nearest_one, hspacing]
    exact Nat.mul_le_mul_right _ (divNearest_mono h)

/-! ### Integers -/

/-- At most 2^53 times a power of two has at most 53 significant bits. -/
theorem onGrid_mul_pow {n : Nat} (h : n ≤ 2 ^ 53) (e : Nat) : OnGrid (n * 2 ^ e) := by
  unfold OnGrid
  by_cases hzero : n * 2 ^ e = 0
  · rw [hzero]
    exact Nat.dvd_zero _
  rcases Nat.lt_or_eq_of_le h with hlt | rfl
  · have hlog : (n * 2 ^ e).log2 < 53 + e := by
      rw [Nat.log2_lt hzero, Nat.pow_add]
      exact Nat.mul_lt_mul_of_pos_right hlt (Nat.two_pow_pos e)
    rw [spacing_eq]
    exact Dvd.dvd.mul_left (Nat.pow_dvd_pow 2 (by omega)) n
  · rw [← Nat.pow_add]
    exact spacing_dvd_pow (Nat.log2_two_pow).le

/-- Integers up to 2^53 are on the grid. -/
theorem onGrid_mul_one {n : Nat} (h : n ≤ 2 ^ 53) : OnGrid (n * one) := by
  obtain ⟨e, he⟩ : ∃ e, one = Nat.pow 2 e := by
    unfold one
    exact ⟨_, Eq.refl _⟩
  rw [he]
  exact onGrid_mul_pow h e

theorem signed_ofInt (n : Int) :
    (ofInt n).signed = if n < 0 then -(nearest (n.natAbs * one) 1 : Int)
      else nearest (n.natAbs * one) 1 := by
  unfold signed ofInt
  by_cases h : n < 0 <;> simp [h]

/-- **The doubles of integers are in their order.** -/
theorem signed_ofInt_mono {m n : Int} (h : m ≤ n) : (ofInt m).signed ≤ (ofInt n).signed := by
  rw [signed_ofInt, signed_ofInt]
  by_cases hm : m < 0
  · rw [if_pos hm]
    by_cases hn : n < 0
    · rw [if_pos hn]
      have hle : n.natAbs * one ≤ m.natAbs * one := Nat.mul_le_mul_right one (by omega)
      have := nearest_mono hle
      omega
    · rw [if_neg hn]
      omega
  · rw [if_neg hm, if_neg (by omega)]
    have hle : m.natAbs * one ≤ n.natAbs * one := Nat.mul_le_mul_right one (by omega)
    have := nearest_mono hle
    omega

/-- Whether there is a double for an integer itself. -/
def Holds (n : Int) : Prop := OnGrid (n.natAbs * one)

instance (n : Int) : Decidable (Holds n) := inferInstanceAs (Decidable (OnGrid _))

/-- Integers up to 2^53 have doubles of their own. -/
theorem holds_of_le {n : Int} (h : n.natAbs ≤ 2 ^ 53) : Holds n := onGrid_mul_one h

/-- **An integer that has a double is its own double.** -/
theorem Holds.signed_ofInt {n : Int} (h : Holds n) : (ofInt n).signed = n * one := by
  rw [Double.signed_ofInt, nearest_self h, Nat.cast_mul]
  by_cases hn : n < 0
  · rw [if_pos hn, ← Int.neg_mul]
    congr 1
    omega
  · rw [if_neg hn]
    congr 1
    omega

/-- What has its own double keeps its distance from all that lies above it or below it. -/
theorem signed_ofInt_lt_of_holds {m a b n : Int} (ha : Holds a) (hb : Holds b) (hma : m ≤ a)
    (hab : a < b) (hbn : b ≤ n) : (ofInt m).signed < (ofInt n).signed := by
  have hone : (0 : Int) < one := by exact_mod_cast one_pos
  calc (ofInt m).signed
      ≤ (ofInt a).signed := signed_ofInt_mono hma
    _ = a * one := ha.signed_ofInt
    _ < b * one := Int.mul_lt_mul_of_pos_right hab hone
    _ = (ofInt b).signed := hb.signed_ofInt.symm
    _ ≤ (ofInt n).signed := signed_ofInt_mono hbn

/-- Whether one of two integers is small enough for its double to be no other integer's, or both
have doubles of their own. -/
def ToldApart (m n : Int) : Prop :=
  m.natAbs < 2 ^ 53 ∨ n.natAbs < 2 ^ 53 ∨ (Holds m ∧ Holds n)

instance (m n : Int) : Decidable (ToldApart m n) := inferInstanceAs (Decidable (_ ∨ _ ∨ _))

theorem ToldApart.symm {m n : Int} (h : ToldApart m n) : ToldApart n m := by
  rcases h with hm | hn | ⟨hm, hn⟩
  · exact .inr (.inl hm)
  · exact .inl hn
  · exact .inr (.inr ⟨hn, hm⟩)

/-- **Integers that are told apart are so in their order.** -/
theorem signed_ofInt_lt {m n : Int} (hapart : ToldApart m n) (h : m < n) :
    (ofInt m).signed < (ofInt n).signed := by
  rcases hapart with hm | hn | ⟨hm, hn⟩
  · exact signed_ofInt_lt_of_holds (holds_of_le (n := m) (by omega))
      (holds_of_le (n := m + 1) (by omega)) (by omega) (by omega) (by omega)
  · exact signed_ofInt_lt_of_holds (holds_of_le (n := n - 1) (by omega))
      (holds_of_le (n := n) (by omega)) (by omega) (by omega) (by omega)
  · exact signed_ofInt_lt_of_holds hm hn le_rfl h le_rfl

end Double

end GraphFetch

/-
The text of a number tells the number.

However the digits are laid out, with zeros in front, zeros behind or a power of ten,
the text denotes the decimal that was found.  A double is what its decimal rounds to,
so no two doubles on the grid share a text; and the point or the power of ten in a
double's text tells it from an integer's.
-/
import GraphFetch.Number.Basic
import GraphFetch.Proofs.Number.Shortest

namespace GraphFetch

/-! ### Digits -/

/-- A run of decimal digits. -/
def AllDigits (text : List Char) : Prop := ∀ c ∈ text, c.isDigit = true

theorem AllDigits.append {a b : List Char} (ha : AllDigits a) (hb : AllDigits b) :
    AllDigits (a ++ b) := by
  intro c hc
  rcases List.mem_append.mp hc with h | h
  · exact ha c h
  · exact hb c h

theorem AllDigits.of_append {a b : List Char} (h : AllDigits (a ++ b)) :
    AllDigits a ∧ AllDigits b :=
  ⟨fun c hc => h c (List.mem_append_left _ hc), fun c hc => h c (List.mem_append_right _ hc)⟩

theorem allDigits_zeros (n : Nat) : AllDigits (List.replicate n '0') := by
  intro c hc
  rw [List.eq_of_mem_replicate hc]
  rfl

theorem allDigits_toDigits (n : Nat) : AllDigits (Nat.toDigits 10 n) :=
  fun _ hc => Nat.isDigit_of_mem_toDigits (by decide) (by decide) hc

/-- The number that a run of digits denotes. -/
abbrev digitsValue (digits : List Char) : Nat := Nat.ofDigitChars 10 digits 0

theorem digitsValue_append_zeros (digits : List Char) (n : Nat) :
    digitsValue (digits ++ List.replicate n '0') = digitsValue digits * 10 ^ n := by
  rw [digitsValue, Nat.ofDigitChars_append, Nat.ofDigitChars_replicate_zero, Nat.mul_comm]

theorem digitsValue_zeros_append (digits : List Char) (n : Nat) :
    digitsValue (List.replicate n '0' ++ digits) = digitsValue digits := by
  rw [digitsValue, Nat.ofDigitChars_append, Nat.ofDigitChars_replicate_zero, Nat.mul_zero]

theorem takeWhile_digits {digits rest : List Char} (hdigits : AllDigits digits)
    (hrest : rest.takeWhile Char.isDigit = []) :
    (digits ++ rest).takeWhile Char.isDigit = digits
      ∧ (digits ++ rest).dropWhile Char.isDigit = rest := by
  have htake : (digits ++ rest).takeWhile Char.isDigit = digits := by
    rw [List.takeWhile_append_of_pos hdigits, hrest, List.append_nil]
  refine ⟨htake, ?_⟩
  have happend := List.takeWhile_append_dropWhile (p := Char.isDigit) (l := digits ++ rest)
  rw [htake] at happend
  exact List.append_cancel_left happend

/-! ### The number that a text denotes -/

/-- The power of ten at the end of a decimal text. -/
def denotedPower : List Char → Int
  | 'e' :: '-' :: digits => -(digitsValue digits : Int)
  | 'e' :: _ :: digits => digitsValue digits
  | _ => 0

/-- The digits after a point, and what follows them. -/
def splitFraction : List Char → List Char × List Char
  | '.' :: rest => (rest.takeWhile Char.isDigit, rest.dropWhile Char.isDigit)
  | rest => ([], rest)

/-- The number that a decimal text without a sign denotes. -/
def denoted (text : List Char) : ℚ :=
  let tail := splitFraction (text.dropWhile Char.isDigit)
  digitsValue (text.takeWhile Char.isDigit ++ tail.1)
    * 10 ^ (denotedPower tail.2 - (tail.1.length : Int))

/-- A power of ten as a text ends with it. -/
inductive PowerText : List Char → Int → Prop
  | none : PowerText [] 0
  | negative {digits : List Char} (h : AllDigits digits) :
      PowerText ('e' :: '-' :: digits) (-(digitsValue digits : Int))
  | positive {digits : List Char} (h : AllDigits digits) :
      PowerText ('e' :: '+' :: digits) (digitsValue digits)

/-- The characters of a number's text. -/
def IsNumberChar (c : Char) : Prop := c.isDigit = true ∨ c ∈ ['.', 'e', '+', '-']

/-- A decimal text without a sign that is not the text of an integer. -/
structure Numeral (text : List Char) (value : ℚ) : Prop where
  denotes : denoted text = value
  marked : ∃ whole mark rest, text = whole ++ mark :: rest ∧ AllDigits whole
    ∧ (mark = '.' ∨ mark = 'e')
  chars : ∀ c ∈ text, IsNumberChar c

theorem Numeral.congr {text text' : List Char} {value value' : ℚ} (h : Numeral text value)
    (htext : text = text') (hvalue : value = value') : Numeral text' value' := by
  subst htext hvalue
  exact h

theorem AllDigits.numberChars {text : List Char} (h : AllDigits text) :
    ∀ c ∈ text, IsNumberChar c := fun c hc => Or.inl (h c hc)

theorem PowerText.spec {text : List Char} {power : Int} (h : PowerText text power) :
    denotedPower text = power ∧ text.takeWhile Char.isDigit = []
      ∧ ∀ c ∈ text, IsNumberChar c := by
  cases h with
  | none => exact ⟨rfl, rfl, by simp⟩
  | negative h | positive h =>
      refine ⟨rfl, rfl, fun c hc => ?_⟩
      rcases List.mem_cons.mp hc with rfl | hc
      · exact Or.inr (by decide)
      · rcases List.mem_cons.mp hc with rfl | hc
        · exact Or.inr (by decide)
        · exact h.numberChars c hc

theorem Numeral.ofPoint {whole fraction power : List Char} {p : Int} (hwhole : AllDigits whole)
    (hfraction : AllDigits fraction) (hpower : PowerText power p) :
    Numeral (whole ++ '.' :: (fraction ++ power))
      (digitsValue (whole ++ fraction) * 10 ^ (p - (fraction.length : Int))) := by
  obtain ⟨hvalue, hmark, hchars⟩ := hpower.spec
  refine ⟨?_, ⟨whole, '.', _, rfl, hwhole, Or.inl rfl⟩, fun c hc => ?_⟩
  · obtain ⟨htake, hdrop⟩ := takeWhile_digits hwhole
      (show ('.' :: (fraction ++ power)).takeWhile Char.isDigit = [] from rfl)
    obtain ⟨htake', hdrop'⟩ := takeWhile_digits hfraction hmark
    simp only [denoted, htake, hdrop, splitFraction, htake', hdrop', hvalue]
  · simp only [List.mem_append, List.mem_cons] at hc
    rcases hc with hc | rfl | hc | hc
    · exact hwhole.numberChars c hc
    · exact Or.inr (by decide)
    · exact hfraction.numberChars c hc
    · exact hchars c hc

theorem Numeral.ofPower {whole power : List Char} {p : Int} (hwhole : AllDigits whole)
    (hpower : PowerText power p) (hne : power ≠ []) :
    Numeral (whole ++ power) (digitsValue whole * 10 ^ p) := by
  obtain ⟨hvalue, hmark, hchars⟩ := hpower.spec
  have hsplit : splitFraction power = ([], power) := by cases hpower <;> rfl
  refine ⟨?_, ?_, fun c hc => ?_⟩
  · obtain ⟨htake, hdrop⟩ := takeWhile_digits hwhole hmark
    simp only [denoted, htake, hdrop, hsplit, hvalue, List.append_nil, List.length_nil,
      Nat.cast_zero, Int.sub_zero]
  · cases hpower with
    | none => exact absurd rfl hne
    | negative h | positive h => exact ⟨whole, 'e', _, rfl, hwhole, Or.inr rfl⟩
  · rcases List.mem_append.mp hc with hc | hc
    · exact hwhole.numberChars c hc
    · exact hchars c hc

namespace Double

/-! ### Layouts -/

/-- Only zeros are stripped. -/
theorem stripZeros_append (digits : List Char) :
    ∃ n, digits = stripZeros digits ++ List.replicate n '0' := by
  refine ⟨(digits.reverse.takeWhile (· == '0')).length, ?_⟩
  have hzeros : digits.reverse.takeWhile (· == '0')
      = List.replicate (digits.reverse.takeWhile (· == '0')).length '0' :=
    List.eq_replicate_iff.mpr ⟨rfl, fun c hc => by
      simpa using List.all_eq_true.mp List.all_takeWhile c hc⟩
  have happend := List.takeWhile_append_dropWhile (p := (· == '0')) (l := digits.reverse)
  rw [hzeros] at happend
  have hreverse := congrArg List.reverse happend
  rw [List.reverse_append, List.reverse_replicate, List.reverse_reverse] at hreverse
  exact hreverse.symm

/-- The value of digits of which the first stands for `10^e`. -/
def leadingValue (digits : List Char) (e : Int) : ℚ :=
  digitsValue digits * 10 ^ (e + 1 - (digits.length : Int))

/-- Positional text denotes its digits. -/
theorem positionalText_numeral {digits : List Char} (hdigits : AllDigits digits) (e : Int) :
    Numeral (positionalText digits e) (leadingValue digits e) := by
  unfold positionalText leadingValue
  split
  · rename_i hneg
    refine (Numeral.ofPoint (allDigits_zeros 1)
      ((allDigits_zeros (-e - 1).toNat).append hdigits) .none).congr
      (by simp [List.replicate_succ]) ?_
    rw [← List.append_assoc, List.replicate_append_replicate, digitsValue_zeros_append,
      List.length_append, List.length_replicate]
    congr 2
    omega
  · rename_i hnonneg
    dsimp only
    by_cases hlength : digits.length ≤ e.toNat + 1
    · rw [List.drop_of_length_le hlength, List.take_of_length_le hlength]
      refine (Numeral.ofPoint (hdigits.append (allDigits_zeros (e.toNat + 1 - digits.length)))
        (allDigits_zeros 1) .none).congr (by simp [List.replicate_succ]) ?_
      rw [List.append_assoc, List.replicate_append_replicate, digitsValue_append_zeros]
      push_cast
      rw [mul_assoc, ← zpow_natCast, ← zpow_add₀ (by norm_num)]
      congr 2
      simp only [List.length_cons, List.length_nil]
      omega
    · have hsplit : digits.take (e.toNat + 1) ++ digits.drop (e.toNat + 1) = digits :=
        List.take_append_drop _ _
      have hparts := AllDigits.of_append (hsplit ▸ hdigits)
      have hne : digits.drop (e.toNat + 1) ≠ [] := by
        rw [ne_eq, List.drop_eq_nil_iff]
        exact hlength
      refine (Numeral.ofPoint hparts.1 hparts.2 .none).congr ?_ ?_
      · rw [Nat.sub_eq_zero_of_le (by omega), List.replicate_zero, List.append_nil,
          if_neg (by simpa using hne), List.append_nil]
      · rw [hsplit, List.length_drop]
        congr 2
        omega

/-- Scientific text denotes its digits. -/
theorem scientificText_numeral {digits : List Char} (hdigits : AllDigits digits) (e : Int) :
    Numeral (scientificText digits e) (leadingValue digits e) := by
  have hpower : PowerText ('e' :: (if e < 0 then '-' else '+') :: Nat.toDigits 10 e.natAbs) e := by
    by_cases hneg : e < 0
    · rw [if_pos hneg]
      have h := PowerText.negative (allDigits_toDigits e.natAbs)
      rwa [digitsValue, Nat.ofDigitChars_ten_toDigits, show -(e.natAbs : Int) = e by omega] at h
    · rw [if_neg hneg]
      have h := PowerText.positive (allDigits_toDigits e.natAbs)
      rwa [digitsValue, Nat.ofDigitChars_ten_toDigits, show (e.natAbs : Int) = e by omega] at h
  unfold scientificText leadingValue
  dsimp only
  match digits with
  | [] =>
      refine (Numeral.ofPower hdigits hpower (by simp)).congr (by simp) (by simp [digitsValue])
  | [digit] =>
      refine (Numeral.ofPower hdigits hpower (by simp)).congr (by simp) ?_
      congr 2
      simp
  | digit :: next :: rest =>
      have hlead : AllDigits [digit] := (AllDigits.of_append hdigits (a := [digit])).1
      have hfraction : AllDigits (next :: rest) := (AllDigits.of_append hdigits (a := [digit])).2
      refine (Numeral.ofPoint hlead hfraction hpower).congr (by simp) ?_
      congr 2
      simp only [List.length_cons]
      omega

/-- Positional or scientific, the digits without trailing zeros denote the decimal. -/
theorem leadingValue_stripZeros (decimal : Decimal) :
    leadingValue (stripZeros (Nat.toDigits 10 decimal.digits))
        (decimal.exponent + ((Nat.toDigits 10 decimal.digits).length : Int) - 1)
      = decimal.digits * 10 ^ decimal.exponent := by
  obtain ⟨n, hn⟩ := stripZeros_append (Nat.toDigits 10 decimal.digits)
  have hvalue : digitsValue (Nat.toDigits 10 decimal.digits) = decimal.digits :=
    Nat.ofDigitChars_ten_toDigits
  have hlength := congrArg List.length hn
  rw [List.length_append, List.length_replicate] at hlength
  rw [hn, digitsValue_append_zeros] at hvalue
  unfold leadingValue
  rw [hlength]
  generalize stripZeros (Nat.toDigits 10 decimal.digits) = digits at hvalue
  rw [← hvalue]
  push_cast
  rw [mul_assoc, ← zpow_natCast, ← zpow_add₀ (by norm_num)]
  congr 2
  omega

/-- **The text of a magnitude denotes a decimal that rounds to it.** -/
theorem magnitudeText_numeral (layout : Layout) (steps : Nat) :
    ∃ value, Numeral (magnitudeText layout steps) value ∧ RoundsTo steps (value * one) := by
  unfold magnitudeText
  split
  · rename_i hzero
    refine ⟨_, Numeral.ofPoint (allDigits_zeros 1) (allDigits_zeros 1) .none, ?_⟩
    have hvalue : digitsValue (List.replicate 1 '0') = 0 := by decide
    rw [hzero, digitsValue_append_zeros, hvalue, Nat.zero_mul, Nat.cast_zero, zero_mul, zero_mul]
    exact RoundsTo.zero
  · rename_i hpos
    have hdigits : AllDigits
        (stripZeros (Nat.toDigits 10 (shortest layout.tiesUp steps).digits)) := by
      obtain ⟨n, hn⟩ := stripZeros_append (Nat.toDigits 10 (shortest layout.tiesUp steps).digits)
      exact (AllDigits.of_append (hn ▸ allDigits_toDigits _)).1
    refine ⟨_, ?_, shortest_roundsTo layout.tiesUp (Nat.pos_of_ne_zero hpos)⟩
    rw [← leadingValue_stripZeros]
    dsimp only
    split
    · exact positionalText_numeral hdigits _
    · exact scientificText_numeral hdigits _

/-! ### Doubles and integers -/

/-- The text of a magnitude has no sign of its own. -/
theorem magnitudeText_ne_minus (layout : Layout) (steps : Nat) (rest : List Char) :
    magnitudeText layout steps ≠ '-' :: rest := by
  obtain ⟨_, hnumeral, -⟩ := magnitudeText_numeral layout steps
  obtain ⟨whole, mark, tail, heq, hwhole, hmark⟩ := hnumeral.marked
  rw [heq]
  intro h
  cases whole with
  | nil =>
      rcases hmark with rfl | rfl <;> exact absurd (List.cons.inj h).1 (by decide)
  | cons c rest =>
      have := hwhole '-' ((List.cons.inj h).1 ▸ List.mem_cons_self)
      exact absurd this (by decide)

/-- **Doubles on the grid that have one text are one double.** -/
theorem chars_injective {layout : Layout} {x y : Double} (hx : OnGrid x.steps)
    (hy : OnGrid y.steps) (h : x.chars layout = y.chars layout) : x = y := by
  have hboth : x.negative = y.negative
      ∧ magnitudeText layout x.steps = magnitudeText layout y.steps := by
    unfold chars at h
    cases hxn : x.negative <;> cases hyn : y.negative <;> rw [hxn, hyn] at h
    · exact ⟨rfl, h⟩
    · exact absurd h (magnitudeText_ne_minus _ _ _)
    · exact absurd h.symm (magnitudeText_ne_minus _ _ _)
    · exact ⟨rfl, (List.cons.inj h).2⟩
  obtain ⟨v, hv, hxv⟩ := magnitudeText_numeral layout x.steps
  obtain ⟨w, hw, hyw⟩ := magnitudeText_numeral layout y.steps
  have hvw : v = w := by rw [← hv.denotes, ← hw.denotes, hboth.2]
  have hsteps : x.steps = y.steps := hxv.unique hx hy (hvw ▸ hyw)
  obtain ⟨_, _⟩ := x
  obtain ⟨_, _⟩ := y
  rw [Double.mk.injEq]
  exact ⟨hboth.1, hsteps⟩

end Double

namespace Number

/-- Whether a number is one that a value can carry: a double has to be on the grid. -/
def Representable : Number → Prop
  | int _ => True
  | float x => Double.OnGrid x.steps

/-- The text of an integer is its sign and its digits. -/
theorem intChars_eq (n : Int) :
    intChars n = (if n < 0 then ['-'] else []) ++ Nat.toDigits 10 n.natAbs := by
  unfold intChars
  split <;> rfl

theorem toDigits_ne_minus (n : Nat) (rest : List Char) : Nat.toDigits 10 n ≠ '-' :: rest := by
  intro h
  have := allDigits_toDigits n '-' (h ▸ List.mem_cons_self)
  exact absurd this (by decide)

theorem intChars_injective {m n : Int} (h : intChars m = intChars n) : m = n := by
  have hdigits : ∀ {a b : Nat}, Nat.toDigits 10 a = Nat.toDigits 10 b → a = b := by
    intro a b hab
    rw [← Nat.ofDigitChars_ten_toDigits (n := a), hab, Nat.ofDigitChars_ten_toDigits]
  unfold intChars at h
  split at h <;> split at h
  · have := hdigits (List.cons.inj h).2
    omega
  · exact absurd h.symm (toDigits_ne_minus _ _)
  · exact absurd h (toDigits_ne_minus _ _)
  · have := hdigits h
    omega

/-- No integer's text has a point or a power of ten. -/
theorem intChars_not_marked (n : Int) {mark : Char}
    (hmark : mark = '.' ∨ mark = 'e') : mark ∉ intChars n := by
  rw [intChars_eq]
  intro hmem
  rcases List.mem_append.mp hmem with h | h
  · split at h
    · rcases hmark with rfl | rfl <;> exact absurd (List.mem_singleton.mp h) (by decide)
    · exact absurd h (by simp)
  · have := allDigits_toDigits _ mark h
    rcases hmark with rfl | rfl <;> exact absurd this (by decide)

theorem isNumberChar_of_mem_chars {n : Number} {c : Char} (hc : c ∈ n.chars) : IsNumberChar c := by
  have hsign : ∀ negative : Bool, c ∈ (if negative then ['-'] else []) → IsNumberChar c := by
    intro negative h
    cases negative
    · exact absurd h (by simp)
    · rw [List.mem_singleton.mp h]
      exact Or.inr (by decide)
  cases n with
  | int n =>
      rw [chars, intChars_eq] at hc
      rcases List.mem_append.mp hc with h | h
      · exact hsign (decide (n < 0)) (by simpa using h)
      · exact (allDigits_toDigits _).numberChars c h
  | float x =>
      rw [chars, Double.chars] at hc
      rcases List.mem_append.mp hc with h | h
      · exact hsign _ h
      · obtain ⟨_, hnumeral, -⟩ := Double.magnitudeText_numeral .json x.steps
        exact hnumeral.chars c h

/-- **Numbers that have one text are one number.** -/
theorem chars_injective {m n : Number} (hm : m.Representable) (hn : n.Representable)
    (h : m.chars = n.chars) : m = n := by
  have hmixed : ∀ {i : Int} {x : Double}, intChars i ≠ x.chars .json := by
    intro i x heq
    obtain ⟨_, hnumeral, -⟩ := Double.magnitudeText_numeral .json x.steps
    obtain ⟨whole, mark, tail, htext, -, hmark⟩ := hnumeral.marked
    refine intChars_not_marked i hmark ?_
    rw [heq, Double.chars, htext]
    simp
  cases m with
  | int i =>
      cases n with
      | int j => rw [intChars_injective h]
      | float y => exact absurd h hmixed
  | float x =>
      cases n with
      | int j => exact absurd h.symm hmixed
      | float y => rw [Double.chars_injective hm hn h]

end Number

end GraphFetch

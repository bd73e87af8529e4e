/-
The text of a value tells the value.

Compact text has no spaces and no choices, and what starts a value says of which kind
it is.  So two texts can be followed together: they are the same only as long as the
values are.  Numbers need something after them that ends them, which a comma, a closing
bracket or the end of the text is.
-/
import GraphFetch.Json.Parser
import GraphFetch.Json.Printer
import GraphFetch.Proofs.Number.Text
import Mathlib.Tactic.IntervalCases

namespace GraphFetch

namespace Json

/-! ### Strings -/

/-- The escape of a control character is read as that character. -/
theorem escaped?_controlEscape {n : Nat} (hn : n < 32) (rest : List Char) :
    escaped? ((controlEscape (Char.ofNat n)).tail ++ rest) = some (Char.ofNat n, rest) := by
  interval_cases n <;> rfl

/-- A character between quotes stands for itself, or it is escaped and read back. -/
theorem escape_cases (c : Char) :
    (escape c = [c] ∧ c ≠ '"' ∧ c ≠ '\\' ∧ ¬c.toNat < 32)
      ∨ ∃ code, escape c = '\\' :: code ∧ ∀ rest, escaped? (code ++ rest) = some (c, rest) := by
  unfold escape
  split
  · rename_i h
    exact Or.inr ⟨_, rfl, fun _ => by rw [h]; rfl⟩
  split
  · rename_i h
    exact Or.inr ⟨_, rfl, fun _ => by rw [h]; rfl⟩
  split
  · rename_i h
    exact Or.inr ⟨_, rfl, fun _ => by rw [h]; rfl⟩
  split
  · rename_i h
    exact Or.inr ⟨_, rfl, fun _ => by rw [h]; rfl⟩
  split
  · rename_i h
    exact Or.inr ⟨_, rfl, fun _ => by rw [h]; rfl⟩
  split
  · rename_i h
    exact Or.inr ⟨_, rfl, fun _ => by rw [← Char.ofNat_toNat c, h]; rfl⟩
  split
  · rename_i h
    exact Or.inr ⟨_, rfl, fun _ => by rw [← Char.ofNat_toNat c, h]; rfl⟩
  split
  · rename_i h
    refine Or.inr ⟨(controlEscape c).tail, rfl, fun rest => ?_⟩
    have hread := escaped?_controlEscape h rest
    rwa [Char.ofNat_toNat] at hread
  · rename_i hquote hslash _ _ _ _ _ hcontrol
    exact Or.inl ⟨rfl, hquote, hslash, hcontrol⟩

/-- Escaped characters are read back up to the closing quote. -/
theorem readChars?_escaped {cs rest : List Char} : ∀ {fuel : Nat}, cs.length < fuel →
    readChars? fuel (cs.flatMap escape ++ '"' :: rest) = some (cs, rest) := by
  induction cs with
  | nil =>
      intro fuel h
      obtain ⟨fuel, rfl⟩ : ∃ n, fuel = n + 1 := ⟨fuel - 1, by omega⟩
      rfl
  | cons c cs ih =>
      intro fuel h
      rw [List.length_cons] at h
      obtain ⟨fuel, rfl⟩ : ∃ n, fuel = n + 1 := ⟨fuel - 1, by omega⟩
      have hrest := ih (show cs.length < fuel by omega)
      rw [List.flatMap_cons, List.append_assoc]
      rcases escape_cases c with ⟨hself, hquote, hslash, hcontrol⟩ | ⟨code, hcode, hread⟩
      · rw [hself, List.singleton_append, readChars?, if_neg hcontrol, hrest]
        · rfl
        · exact hquote
        · exact fun h => hslash h
      · rw [hcode, List.cons_append, readChars?, hread]
        simp [hrest]

theorem length_le_escaped (cs : List Char) : cs.length ≤ (cs.flatMap escape).length := by
  induction cs with
  | nil => exact Nat.le_refl _
  | cons c cs ih =>
      have hpos : 0 < (escape c).length := by
        rcases escape_cases c with ⟨h, -⟩ | ⟨code, h, -⟩ <;> rw [h] <;> exact Nat.succ_pos _
      rw [List.flatMap_cons, List.length_append, List.length_cons]
      omega

/-- **A quoted string is read back as it was.** -/
theorem readString?_quoted (s : String) (rest : List Char) :
    readString? (quoted s ++ rest) = some (s, rest) := by
  have hlength : s.toList.length < (s.toList.flatMap escape ++ '"' :: rest).length + 1 := by
    have := length_le_escaped s.toList
    rw [List.length_append]
    omega
  have happend : quoted s ++ rest = '"' :: (s.toList.flatMap escape ++ '"' :: rest) := by
    simp [quoted]
  rw [happend, readString?, readChars?_escaped hlength]
  simp

/-- Texts that start with quoted strings are the same only if the strings are. -/
theorem quoted_append_injective {s t : String} {rest rest' : List Char}
    (h : quoted s ++ rest = quoted t ++ rest') : s = t ∧ rest = rest' := by
  have hread := readString?_quoted s rest
  rw [h, readString?_quoted] at hread
  simpa [eq_comm] using hread

/-! ### The first character -/

/-- The kind of a value. -/
def kind : Json → Nat
  | null => 0
  | bool true => 1
  | bool false => 2
  | str _ => 3
  | arr _ => 4
  | obj _ => 5
  | num _ => 6

/-- The kind of value that a character starts. -/
def kindOf (c : Char) : Nat :=
  if c = 'n' then 0
  else if c = 't' then 1
  else if c = 'f' then 2
  else if c = '"' then 3
  else if c = '[' then 4
  else if c = '\x7b' then 5
  else 6

instance : DecidablePred IsNumberChar := fun c =>
  inferInstanceAs (Decidable (c.isDigit = true ∨ c ∈ ['.', 'e', '+', '-']))

theorem kindOf_number {c : Char} (h : IsNumberChar c) : kindOf c = 6 := by
  unfold kindOf
  repeat' split
  all_goals first | rfl | (rename_i hc; subst hc; exact absurd h (by decide))

theorem number_chars_ne_nil (n : Number) : n.chars ≠ [] := by
  cases n with
  | int n =>
      rw [Number.chars, Number.intChars_eq]
      simp [Nat.toDigits_ne_nil]
  | float x =>
      obtain ⟨_, hnumeral, -⟩ := Double.magnitudeText_numeral .json x.steps
      obtain ⟨whole, mark, rest, heq, -⟩ := hnumeral.marked
      rw [Number.chars, Double.chars, heq]
      simp

/-- The first character of a value's text tells the kind of the value, and ends nothing. -/
theorem chars_head (v : Json) :
    ∃ c rest, v.chars = c :: rest ∧ kindOf c = v.kind ∧ c ≠ ']' := by
  cases v with
  | null => exact ⟨_, _, rfl, rfl, by decide⟩
  | bool b => cases b <;> exact ⟨_, _, rfl, rfl, by decide⟩
  | str s => exact ⟨_, _, by rw [chars]; rfl, rfl, by decide⟩
  | arr items => cases items <;> exact ⟨_, _, by rw [chars], rfl, by decide⟩
  | obj members =>
      cases members <;> exact ⟨_, _, by rw [chars], rfl, by decide⟩
  | num n =>
      obtain ⟨c, rest, heq⟩ := List.exists_cons_of_ne_nil (number_chars_ne_nil n)
      have hc : IsNumberChar c :=
        Number.isNumberChar_of_mem_chars (heq ▸ List.mem_cons_self)
      refine ⟨c, rest, by rw [chars, heq], kindOf_number hc, ?_⟩
      rintro rfl
      exact absurd hc (by decide)

/-- A value's text does not start with what closes an array. -/
theorem close_ne_chars (v : Json) (rest rest' : List Char) :
    ']' :: rest ≠ v.chars ++ rest' := by
  obtain ⟨c, tail, hv, -, hclose⟩ := chars_head v
  rw [hv, List.cons_append]
  exact fun h => hclose (List.cons.inj h).1.symm

theorem kind_eq {v w : Json} {rest rest' : List Char} (h : v.chars ++ rest = w.chars ++ rest') :
    v.kind = w.kind := by
  obtain ⟨c, tail, hv, hkind, -⟩ := chars_head v
  obtain ⟨d, tail', hw, hkind', -⟩ := chars_head w
  rw [hv, hw, List.cons_append, List.cons_append] at h
  rw [← hkind, ← hkind', (List.cons.inj h).1]

/-! ### Numbers -/

/-- A text that cannot carry on a number. -/
def EndsNumber (rest : List Char) : Prop := rest.takeWhile (fun c => decide (IsNumberChar c)) = []

theorem number_append_injective {m n : Number} (hm : m.Representable) (hn : n.Representable)
    {rest rest' : List Char} (hrest : EndsNumber rest) (hrest' : EndsNumber rest')
    (h : m.chars ++ rest = n.chars ++ rest') : m = n ∧ rest = rest' := by
  have htake : ∀ (n : Number) {rest : List Char}, EndsNumber rest →
      (n.chars ++ rest).takeWhile (fun c => decide (IsNumberChar c)) = n.chars := by
    intro n rest hrest
    rw [List.takeWhile_append_of_pos
      (fun c hc => decide_eq_true (Number.isNumberChar_of_mem_chars hc)), hrest, List.append_nil]
  have hchars : m.chars = n.chars := by rw [← htake m hrest, h, htake n hrest']
  refine ⟨Number.chars_injective hm hn hchars, ?_⟩
  rw [hchars] at h
  exact List.append_cancel_left h

/-! ### Values -/

mutual

/-- Whether all numbers of a value are ones that a value can carry. -/
def Representable : Json → Prop
  | num n => n.Representable
  | arr items => RepresentableItems items
  | obj members => RepresentableMembers members
  | _ => True

def RepresentableItems : List Json → Prop
  | [] => True
  | item :: rest => item.Representable ∧ RepresentableItems rest

def RepresentableMembers : List (String × Json) → Prop
  | [] => True
  | (_, value) :: rest => value.Representable ∧ RepresentableMembers rest

end

theorem moreItems_ends (items : List Json) (rest : List Char) :
    EndsNumber (moreItems items ++ rest) := by
  cases items <;> rw [moreItems] <;> rfl

theorem moreMembers_ends (members : List (String × Json)) (rest : List Char) :
    EndsNumber (moreMembers members ++ rest) := by
  cases members <;> rw [moreMembers] <;> rfl

mutual

/-- Texts that start with values are the same only if the values are. -/
theorem chars_append_injective (v w : Json) (hv : v.Representable) (hw : w.Representable)
    {rest rest' : List Char} (hrest : EndsNumber rest) (hrest' : EndsNumber rest')
    (h : v.chars ++ rest = w.chars ++ rest') : v = w ∧ rest = rest' := by
  have hkind := kind_eq h
  match v, w with
  | null, null => exact ⟨rfl, by simpa [chars] using h⟩
  | bool true, bool true => exact ⟨rfl, by simpa [chars] using h⟩
  | bool false, bool false => exact ⟨rfl, by simpa [chars] using h⟩
  | str s, str t =>
      obtain ⟨hst, htail⟩ := quoted_append_injective (by simpa [chars] using h)
      exact ⟨by rw [hst], htail⟩
  | num m, num n =>
      rw [Representable] at hv hw
      obtain ⟨hmn, htail⟩ := number_append_injective hv hw hrest hrest' (by simpa [chars] using h)
      exact ⟨by rw [hmn], htail⟩
  | arr [], arr [] => exact ⟨rfl, by simpa [chars] using h⟩
  | arr (x :: xs), arr (y :: ys) =>
      rw [Representable] at hv hw
      have hmore : moreItems (x :: xs) ++ rest = moreItems (y :: ys) ++ rest' := by
        rw [moreItems, moreItems]
        simpa [chars] using h
      obtain ⟨heq, htail⟩ := moreItems_append_injective (x :: xs) (y :: ys) hv hw hmore
      exact ⟨by rw [heq], htail⟩
  | arr [], arr (y :: ys) => exact absurd (by simpa [chars] using h) (close_ne_chars y _ _)
  | arr (x :: xs), arr [] => exact absurd (by simpa [chars] using h.symm) (close_ne_chars x _ _)
  | obj [], obj [] => exact ⟨rfl, by simpa [chars] using h⟩
  | obj ((m, x) :: xs), obj ((n, y) :: ys) =>
      rw [Representable] at hv hw
      have hmore : moreMembers ((m, x) :: xs) ++ rest = moreMembers ((n, y) :: ys) ++ rest' := by
        rw [moreMembers, moreMembers]
        simpa [chars] using h
      obtain ⟨heq, htail⟩ := moreMembers_append_injective _ _ hv hw hmore
      exact ⟨by rw [heq], htail⟩
  | obj [], obj ((n, y) :: ys) => simp [chars, quoted] at h
  | obj ((m, x) :: xs), obj [] => simp [chars, quoted] at h

theorem moreItems_append_injective (xs ys : List Json) (hx : RepresentableItems xs)
    (hy : RepresentableItems ys) {rest rest' : List Char}
    (h : moreItems xs ++ rest = moreItems ys ++ rest') : xs = ys ∧ rest = rest' := by
  match xs, ys with
  | [], [] => exact ⟨rfl, by simpa [moreItems] using h⟩
  | [], y :: ys => simp [moreItems] at h
  | x :: xs, [] => simp [moreItems] at h
  | x :: xs, y :: ys =>
      rw [RepresentableItems] at hx hy
      have hfirst : x.chars ++ (moreItems xs ++ rest) = y.chars ++ (moreItems ys ++ rest') := by
        simpa [moreItems] using h
      obtain ⟨hxy, htail⟩ := chars_append_injective x y hx.1 hy.1 (moreItems_ends xs rest)
        (moreItems_ends ys rest') hfirst
      obtain ⟨hrest, hend⟩ := moreItems_append_injective xs ys hx.2 hy.2 htail
      exact ⟨by rw [hxy, hrest], hend⟩

theorem moreMembers_append_injective (ms ns : List (String × Json)) (hm : RepresentableMembers ms)
    (hn : RepresentableMembers ns) {rest rest' : List Char}
    (h : moreMembers ms ++ rest = moreMembers ns ++ rest') : ms = ns ∧ rest = rest' := by
  match ms, ns with
  | [], [] => exact ⟨rfl, by simpa [moreMembers] using h⟩
  | [], (b, y) :: ns => simp [moreMembers] at h
  | (a, x) :: ms, [] => simp [moreMembers] at h
  | (a, x) :: ms, (b, y) :: ns =>
      rw [RepresentableMembers] at hm hn
      have hname : quoted a ++ (':' :: (x.chars ++ (moreMembers ms ++ rest)))
          = quoted b ++ (':' :: (y.chars ++ (moreMembers ns ++ rest'))) := by
        simpa [moreMembers] using h
      obtain ⟨hab, hvalue⟩ := quoted_append_injective hname
      obtain ⟨hxy, htail⟩ := chars_append_injective x y hm.1 hn.1 (moreMembers_ends ms rest)
        (moreMembers_ends ns rest') (List.cons.inj hvalue).2
      obtain ⟨hrest, hend⟩ := moreMembers_append_injective ms ns hm.2 hn.2 htail
      exact ⟨by rw [hab, hxy, hrest], hend⟩

end

/-- **Values that have one text are one value.** -/
theorem text_injective {v w : Json} (hv : v.Representable) (hw : w.Representable)
    (h : v.text = w.text) : v = w := by
  have hchars : v.chars ++ [] = w.chars ++ [] := by
    rw [List.append_nil, List.append_nil]
    exact String.ofList_injective h
  have hends : EndsNumber [] := rfl
  exact (chars_append_injective v w hv hw hends hends hchars).1

theorem parse?_text (v : Json) : parse? v.text = parseChars? v.chars := by
  rw [parse?, text, String.toList_ofList]

end Json

end GraphFetch

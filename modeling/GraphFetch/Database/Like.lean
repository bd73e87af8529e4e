/-
Matching texts against patterns.

In a pattern `%` stands for any run of characters and `_` for exactly one.  A scan goes
through pattern and text side by side.  At a `%` it first lets the sign stand for nothing
and remembers the place; where pattern and text part, it goes back to the last such place
and lets that sign stand for one character more.  What earlier signs stand for is never
reconsidered: they took the shortest run that would do, and left the most text.

A scan ends since every step lowers

    (text from the last `%` on) · (pattern behind it + 1) + (pattern left),

counted in characters: going back costs one character of the text and gives back at most the
pattern behind the sign.
-/
import GraphFetch.Text.Lowercase
import GraphFetch.Json.Basic

namespace GraphFetch

namespace Like

/-! ### Places to go back to -/

/-- The last `%` of a scan: the pattern behind it, and the text behind what it stands for. -/
structure Place where
  pattern : List Char
  text : List Char

/-- What a scan has left of pattern and text after it went on from a place, one character of each
at a time and over no other `%`. -/
inductive Place.Leads (place : Place) : List Char → List Char → Prop
  | here : Leads place place.pattern place.text
  | on {p c : Char} {pattern text : List Char} (hrun : p ≠ '%')
      (h : Leads place (p :: pattern) (c :: text)) : Leads place pattern text

theorem Place.Leads.length_le {place : Place} {pattern text : List Char}
    (h : place.Leads pattern text) :
    pattern.length ≤ place.pattern.length ∧ text.length ≤ place.text.length := by
  induction h with
  | here => exact ⟨Nat.le_refl _, Nat.le_refl _⟩
  | on _ _ ih =>
      simp only [List.length_cons] at ih
      omega

/-! ### Scans -/

/-- How far a scan has come: what is left of pattern and text, and its last `%`. -/
structure Scan where
  pattern : List Char
  text : List Char
  last : Option Place
  leads : ∀ place, last = some place → place.Leads pattern text

namespace Scan

/-- The scan of a whole pattern and a whole text. -/
def start (pattern text : List Char) : Scan := ⟨pattern, text, none, nofun⟩

/-- The scan that goes on behind a `%`, from the text behind what the sign stands for. -/
def behind (pattern text : List Char) : Scan :=
  ⟨pattern, text, some ⟨pattern, text⟩, fun _ h => Option.some.inj h ▸ .here⟩

/-- Lets the last `%` stand for one character more; without one there is no match. -/
def goBack : Option Place → Bool ⊕ Scan
  | none => .inl false
  | some place => .inr (behind place.pattern place.text.tail)

/-- Whether a pattern character other than `%` stands for a character. -/
def fits (p c : Char) : Bool := p == '_' || p == c

/-- One step of a scan: the answer, or the scan that goes on. -/
def step : Scan → Bool ⊕ Scan
  | ⟨pattern, [], _, _⟩ => .inl (pattern.all (· == '%'))
  | ⟨[], _ :: _, last, _⟩ => goBack last
  | ⟨p :: pattern, c :: text, last, leads⟩ =>
    if hrun : p = '%' then .inr (behind pattern (c :: text))
    else if fits p c then
      .inr ⟨pattern, text, last, fun place h => .on hrun (leads place h)⟩
    else goBack last

/-- The steps that a scan has left at most: a pass of the pattern behind the last `%`, or of all of
it while there is none, for each character of the text from there on, and the rest of this pass. -/
def rank : Scan → Nat
  | ⟨pattern, text, none, _⟩ => text.length * (pattern.length + 1) + pattern.length
  | ⟨pattern, _, some place, _⟩ =>
    place.text.length * (place.pattern.length + 1) + pattern.length

theorem rank_behind (pattern text : List Char) :
    (behind pattern text).rank = text.length * (pattern.length + 1) + pattern.length := rfl

theorem goBack_rank (scan : Scan) {next : Scan} (htext : scan.text ≠ [])
    (h : goBack scan.last = .inr next) : next.rank < scan.rank := by
  obtain ⟨pattern, text, last, leads⟩ := scan
  cases last with
  | none => cases h
  | some place =>
      cases h
      have hpos : 0 < text.length := List.length_pos_iff.mpr htext
      have hle := (leads place rfl).length_le.2
      obtain ⟨count, hcount⟩ : ∃ count, place.text.length = count + 1 :=
        ⟨place.text.length - 1, by omega⟩
      show (behind place.pattern place.text.tail).rank
        < place.text.length * (place.pattern.length + 1) + pattern.length
      rw [rank_behind, List.length_tail, hcount, Nat.add_sub_cancel, Nat.succ_mul]
      omega

theorem behind_rank (scan : Scan) {pattern : List Char} (h : scan.pattern = '%' :: pattern) :
    (behind pattern scan.text).rank < scan.rank := by
  obtain ⟨_, text, last, leads⟩ := scan
  cases h
  rw [rank_behind]
  cases last with
  | none =>
      have hless : text.length * (pattern.length + 1) ≤ text.length * (pattern.length + 1 + 1) :=
        Nat.mul_le_mul_left _ (Nat.le_succ _)
      exact Nat.add_lt_add_of_le_of_lt hless (Nat.lt_succ_self _)
  | some place =>
      obtain ⟨hpattern, htext⟩ := (leads place rfl).length_le
      have hless : text.length * (pattern.length + 1)
          ≤ place.text.length * (place.pattern.length + 1) :=
        Nat.mul_le_mul htext (Nat.le_succ_of_le hpattern)
      exact Nat.add_lt_add_of_le_of_lt hless (Nat.lt_succ_self _)

/-- Every step makes the rank less. -/
theorem step_rank {scan next : Scan} (h : scan.step = .inr next) : next.rank < scan.rank := by
  revert h
  fun_cases step scan with
  | case1 => intro h; cases h
  | case2 c text last leads =>
      exact goBack_rank ⟨[], c :: text, last, leads⟩ (List.cons_ne_nil c text)
  | case3 pattern c text last leads =>
      intro h
      cases h
      exact behind_rank ⟨'%' :: pattern, c :: text, last, leads⟩ rfl
  | case4 p pattern c text last leads =>
      intro h
      cases h
      cases last with
      | none =>
          exact Nat.add_lt_add_of_le_of_lt
            (Nat.mul_le_mul (Nat.le_succ _) (Nat.le_succ _)) (Nat.lt_succ_self _)
      | some place => exact Nat.add_lt_add_left (Nat.lt_succ_self _) _
  | case5 p pattern c text last leads =>
      exact goBack_rank ⟨p :: pattern, c :: text, last, leads⟩ (List.cons_ne_nil c text)

/-- Goes on until there is an answer. -/
def run (scan : Scan) : Bool :=
  match _hstep : scan.step with
  | .inl answer => answer
  | .inr next => next.run
termination_by scan.rank
decreasing_by exact step_rank ‹_›

end Scan

/-! ### Patterns -/

/-- Whether a pattern matches a text as a whole. -/
def matchChars (pattern text : List Char) : Bool := (Scan.start pattern text).run

/-- Whether a value matches a pattern, in lower case if case is ignored; only strings match. -/
def matchValue (ignoreCase : Bool) : Json → Json → Bool
  | .str text, .str pattern =>
    if ignoreCase then matchChars (Text.lower pattern.toList) (Text.lower text.toList)
    else matchChars pattern.toList text.toList
  | _, _ => false

end Like

end GraphFetch

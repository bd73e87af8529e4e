/-
What a pattern matches.

A pattern matches a text that can be cut into pieces, one for each character of the
pattern: any piece for a `%`, a single character for a `_`, and itself for any other
character.  This says nothing about how the pieces are found.

A scan keeps one alternative open besides going on: that its last `%` stands for more.
`Scan.Matches` is the disjunction of the two, and every step keeps it.  What the step over a
`%` gives up are the longer runs of the `%` before it, and those are not needed: what the
earlier sign would take, the later one can take as well.  Since every step also lowers the
rank of the scan, the steps come to an end, and the answer there is that of the start.
-/
import GraphFetch.Database.Like
import Mathlib.Data.List.Forall2

namespace GraphFetch

namespace Like

/-! ### Pieces of a text -/

/-- Whether a pattern character stands for a piece of a text. -/
def Stands (p : Char) (piece : List Char) : Prop :=
  if p = '%' then True else if p = '_' then piece.length = 1 else piece = [p]

/-- Whether a text can be cut into pieces that the characters of a pattern stand for. -/
def Covers (pattern text : List Char) : Prop :=
  ∃ pieces : List (List Char), List.Forall₂ Stands pattern pieces ∧ pieces.flatten = text

theorem stands_run (piece : List Char) : Stands '%' piece := trivial

/-- Any character but `%` stands for a single one. -/
theorem stands_iff_fits {p : Char} (hrun : p ≠ '%') {piece : List Char} :
    Stands p piece ↔ ∃ c, Scan.fits p c = true ∧ piece = [c] := by
  unfold Stands Scan.fits
  rw [if_neg hrun]
  by_cases hany : p = '_'
  · rw [if_pos hany, List.length_eq_one_iff]
    simp [hany]
  · rw [if_neg hany]
    simp [hany]

theorem covers_nil {text : List Char} : Covers [] text ↔ text = [] := by
  simp [Covers, eq_comm]

theorem covers_cons {p : Char} {pattern text : List Char} :
    Covers (p :: pattern) text
      ↔ ∃ piece rest, Stands p piece ∧ Covers pattern rest ∧ piece ++ rest = text := by
  unfold Covers
  constructor
  · rintro ⟨pieces, hpieces, rfl⟩
    obtain ⟨piece, others, hpiece, hothers, rfl⟩ := List.forall₂_cons_left_iff.mp hpieces
    exact ⟨piece, others.flatten, hpiece, ⟨others, hothers, rfl⟩, rfl⟩
  · rintro ⟨piece, _, hpiece, ⟨others, hothers, rfl⟩, rfl⟩
    exact ⟨piece :: others, .cons hpiece hothers, rfl⟩

theorem covers_run {pattern text : List Char} :
    Covers ('%' :: pattern) text ↔ ∃ run rest, Covers pattern rest ∧ run ++ rest = text := by
  rw [covers_cons]
  constructor
  · rintro ⟨run, rest, -, hrest, htext⟩
    exact ⟨run, rest, hrest, htext⟩
  · rintro ⟨run, rest, hrest, htext⟩
    exact ⟨run, rest, stands_run run, hrest, htext⟩

theorem covers_char {p : Char} (hrun : p ≠ '%') {pattern text : List Char} :
    Covers (p :: pattern) text
      ↔ ∃ c rest, Scan.fits p c = true ∧ Covers pattern rest ∧ text = c :: rest := by
  rw [covers_cons]
  constructor
  · rintro ⟨piece, rest, hpiece, hrest, rfl⟩
    obtain ⟨c, hfits, rfl⟩ := (stands_iff_fits hrun).mp hpiece
    exact ⟨c, rest, hfits, hrest, rfl⟩
  · rintro ⟨c, rest, hfits, hrest, rfl⟩
    exact ⟨[c], rest, (stands_iff_fits hrun).mpr ⟨c, hfits, rfl⟩, hrest, rfl⟩

/-- A `%` in front can take whatever else comes in front. -/
theorem Covers.run_append {pattern text : List Char} (h : Covers ('%' :: pattern) text)
    (front : List Char) : Covers ('%' :: pattern) (front ++ text) := by
  obtain ⟨run, rest, hrest, rfl⟩ := covers_run.mp h
  exact covers_run.mpr ⟨front ++ run, rest, hrest, List.append_assoc front run rest⟩

/-- A `%` stands for nothing, or for one character and then for what else it stands for. -/
theorem covers_run_tail {pattern text : List Char} :
    Covers ('%' :: pattern) text ↔ Covers pattern text ∨ Covers ('%' :: pattern) text.tail := by
  constructor
  · intro h
    obtain ⟨run, rest, hrest, rfl⟩ := covers_run.mp h
    cases run with
    | nil => exact .inl hrest
    | cons c run => exact .inr (covers_run.mpr ⟨run, rest, hrest, rfl⟩)
  · rintro (h | h)
    · exact covers_run.mpr ⟨[], text, h, rfl⟩
    · cases text with
      | nil => exact h
      | cons c text => exact h.run_append [c]

/-- The second of two `%` in a row takes what the first one would. -/
theorem Covers.of_run_run {pattern text : List Char} (h : Covers ('%' :: '%' :: pattern) text) :
    Covers ('%' :: pattern) text := by
  obtain ⟨run, rest, hrest, rfl⟩ := covers_run.mp h
  exact hrest.run_append run

/-- Only signs for any run cover the empty text. -/
theorem covers_empty {pattern : List Char} :
    Covers pattern [] ↔ pattern.all (· == '%') = true := by
  induction pattern with
  | nil => simp [covers_nil]
  | cons p pattern ih =>
      by_cases hrun : p = '%'
      · subst hrun
        rw [covers_run_tail, List.tail_nil, List.all_cons, Bool.and_eq_true, ← ih]
        constructor
        · rintro (h | h)
          · exact ⟨rfl, h⟩
          · obtain ⟨run, rest, hrest, hnil⟩ := covers_run.mp h
            exact ⟨rfl, (List.append_eq_nil_iff.mp hnil).2 ▸ hrest⟩
        · exact fun h => .inl h.2
      · rw [covers_char hrun]
        simp [hrun]

/-! ### What a scan has left to find -/

/-- **What is found if the sign at a place stands for more is also found if a `%` stands where the
scan is now.**  So the earlier sign need not be reconsidered. -/
theorem Place.Leads.covers {place : Place} {pattern text : List Char}
    (h : place.Leads pattern text) :
    Covers ('%' :: place.pattern) place.text.tail → Covers ('%' :: pattern) text.tail := by
  induction h with
  | here => exact id
  | @on p c pattern text hrun _ ih =>
      intro hplace
      obtain ⟨run, rest, hrest, htext⟩ := covers_run.mp (ih hplace)
      obtain ⟨d, after, -, hafter, rfl⟩ := (covers_char hrun).mp hrest
      -- The scan took one character off the text, and so does `p` behind the longer run.
      have htail : text.tail = (run ++ [d]).tail ++ after := by
        rw [← List.tail_append_of_ne_nil (by simp), List.append_assoc]
        exact congrArg List.tail htext.symm
      exact covers_run.mpr ⟨(run ++ [d]).tail, after, hafter, htail.symm⟩

namespace Scan

/-- Whether the rest of a text matches the rest of a pattern, or the last `%` can stand for more. -/
def Matches (scan : Scan) : Prop :=
  Covers scan.pattern scan.text
    ∨ ∃ place, scan.last = some place ∧ Covers ('%' :: place.pattern) place.text.tail

theorem matches_start {pattern text : List Char} :
    (start pattern text).Matches ↔ Covers pattern text := by
  simp [Matches, start]

theorem matches_behind {pattern text : List Char} :
    (behind pattern text).Matches ↔ Covers ('%' :: pattern) text := by
  rw [covers_run_tail]
  simp [Matches, behind]

/-- A scan that is stuck matches if it does after going back. -/
theorem matches_stuck (scan : Scan) (h : ¬Covers scan.pattern scan.text) :
    match goBack scan.last with
    | .inl answer => answer = true ↔ scan.Matches
    | .inr next => next.Matches ↔ scan.Matches := by
  cases hlast : scan.last with
  | none =>
      show false = true ↔ _
      simp [Matches, h, hlast]
  | some place =>
      show (behind place.pattern place.text.tail).Matches ↔ _
      rw [matches_behind]
      simp [Matches, h, hlast]

/-- **A step answers whether the scan matches, or leads to one that matches if this one does.** -/
theorem step_matches (scan : Scan) :
    match scan.step with
    | .inl answer => answer = true ↔ scan.Matches
    | .inr next => next.Matches ↔ scan.Matches := by
  fun_cases step scan with
  | case1 pattern last leads =>
      show _ ↔ Covers pattern [] ∨ _
      rw [covers_empty, iff_self_or]
      rintro ⟨place, hplace, hmore⟩
      have hrest := (leads place hplace).covers hmore
      rwa [List.tail_nil, covers_empty, List.all_cons] at hrest
  | case2 c text last leads =>
      refine matches_stuck ⟨[], c :: text, last, leads⟩ ?_
      simp [covers_nil]
  | case3 pattern c text last leads =>
      show (behind pattern (c :: text)).Matches ↔ Covers ('%' :: pattern) (c :: text) ∨ _
      rw [matches_behind, iff_self_or]
      rintro ⟨place, hplace, hmore⟩
      exact ((leads place hplace).covers hmore).of_run_run.run_append [c]
  | case4 p pattern c text last leads hrun hfits =>
      refine or_congr_left ?_
      show Covers pattern text ↔ Covers (p :: pattern) (c :: text)
      rw [covers_char hrun]
      simp [hfits]
  | case5 p pattern c text last leads hrun hfits =>
      refine matches_stuck ⟨p :: pattern, c :: text, last, leads⟩ ?_
      rw [covers_char hrun]
      simp [hfits]

/-- **The answer of a scan is whether it matches.** -/
theorem run_iff (scan : Scan) : scan.run = true ↔ scan.Matches := by
  fun_induction run scan with
  | case1 scan answer hstep =>
      have hmatches := step_matches scan
      rwa [hstep] at hmatches
  | case2 scan next hstep ih =>
      have hmatches := step_matches scan
      rw [hstep] at hmatches
      exact ih.trans hmatches

/-- A scan after some steps, or the answer it had come to before. -/
def after : Nat → Scan → Bool ⊕ Scan
  | 0, scan => .inr scan
  | count + 1, scan =>
    match scan.step with
    | .inl answer => .inl answer
    | .inr next => next.after count

/-- **Every scan comes to its answer, by no more steps than its rank and one.** -/
theorem exists_after_eq_run (scan : Scan) :
    ∃ count ≤ scan.rank + 1, scan.after count = .inl scan.run := by
  fun_induction run scan with
  | case1 scan answer hstep => exact ⟨1, Nat.le_add_left .., by simp [after, hstep]⟩
  | case2 scan next hstep ih =>
      obtain ⟨count, hle, hcount⟩ := ih
      have hless : next.rank < scan.rank := step_rank hstep
      exact ⟨count + 1, by omega, by simp [after, hstep, hcount]⟩

theorem rank_start (pattern text : List Char) :
    (start pattern text).rank + 1 = (text.length + 1) * (pattern.length + 1) := by
  rw [Nat.succ_mul]
  rfl

end Scan

/-! ### Patterns -/

theorem matchChars_iff_covers {pattern text : List Char} :
    matchChars pattern text = true ↔ Covers pattern text :=
  (Scan.run_iff _).trans Scan.matches_start

/-- **Matching ends, after no more steps than the lengths of pattern and text allow, and a pattern
matches the texts that it covers**: those that can be cut into pieces, any run for each `%`, one
character for each `_`, and itself for each other character. -/
theorem matchChars_spec (pattern text : List Char) :
    (∃ count ≤ (text.length + 1) * (pattern.length + 1),
        (Scan.start pattern text).after count = .inl (matchChars pattern text))
      ∧ (matchChars pattern text = true
        ↔ ∃ pieces : List (List Char), List.Forall₂ Stands pattern pieces
          ∧ pieces.flatten = text) :=
  ⟨Scan.rank_start pattern text ▸ Scan.exists_after_eq_run _, matchChars_iff_covers⟩

end Like

end GraphFetch

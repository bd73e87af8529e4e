/-
Matching in lower case.

A text that matches a pattern should still match when case is ignored.  Pattern and text are
put into lower case apart from each other, however, and that is no change of single
characters.  The capital `İ` becomes two characters, of which a `_` stands for one only.  And
the capital sigma has two small forms, by what stands around it: behind and in front of a
wildcard the pattern does not show what will stand there in the text.

These two are the only obstacles.  A pattern is `settled` if it tells the form of each of its
capital sigmas itself, whatever its wildcards stand for, and a piece of the text in lower case
then is a piece of the text in lower case for the same characters of the pattern.
-/
import GraphFetch.Database.Select
import GraphFetch.Proofs.Database.Matching

namespace GraphFetch

namespace Text

/-! ### Lower case, character by character -/

theorem casedNext_cons (c : Char) (text : List Char) :
    casedNext (c :: text)
      = if inRanges ignorableRanges c.toNat then casedNext text
        else inRanges casedRanges c.toNat := by
  unfold casedNext
  rw [List.dropWhile_cons]
  by_cases h : inRanges ignorableRanges c.toNat = true
  · rw [if_pos h, if_pos h]
  · rw [if_neg h, if_neg h]

/-- The small letters of a character between two texts, the one in front read backwards. -/
def lowerBetween (before : List Char) (c : Char) (rest : List Char) : List Char :=
  if c = 'Σ' then (if casedNext before && !casedNext rest then ['ς'] else ['σ']) else lowerChar c

theorem lowerAfter_cons (before : List Char) (c : Char) (rest : List Char) :
    lowerAfter before (c :: rest) = lowerBetween before c rest ++ lowerAfter (c :: before) rest :=
  rfl

/-- The end of a text in lower case is the end in lower case, where it stands. -/
theorem lowerAfter_append (before front rest : List Char) :
    ∃ lowered, lowerAfter before (front ++ rest)
      = lowered ++ lowerAfter (front.reverse ++ before) rest := by
  induction front generalizing before with
  | nil => exact ⟨[], rfl⟩
  | cons c front ih =>
      obtain ⟨lowered, hlowered⟩ := ih (c :: before)
      refine ⟨lowerBetween before c (front ++ rest) ++ lowered, ?_⟩
      rw [List.cons_append, lowerAfter_cons, hlowered, List.append_assoc, List.reverse_cons,
        List.append_assoc, List.singleton_append]

/-- Every character but one has a single small letter. -/
theorem lowerBetween_single {c : Char} (h : c ≠ 'İ') (before rest : List Char) :
    ∃ small, lowerBetween before c rest = [small] := by
  have hcode : c.toNat ≠ 0x130 := fun hcode => h (Char.toNat_inj.mp hcode)
  unfold lowerBetween
  by_cases hsigma : c = 'Σ'
  · rw [if_pos hsigma]
    by_cases hfinal : (casedNext before && !casedNext rest) = true
    · exact ⟨'ς', if_pos hfinal⟩
    · exact ⟨'σ', if_neg hfinal⟩
  · rw [if_neg hsigma, lowerChar, if_neg hcode]
    by_cases hascii : c.toNat < 0x80
    · exact ⟨c.toLower, if_pos hascii⟩
    · rw [if_neg hascii]
      cases lowerIn lowerRuns c.toNat with
      | none => exact ⟨c, rfl⟩
      | some code => exact ⟨Char.ofNat code, rfl⟩

end Text

namespace Like

open Text (casedNext casedNext_cons lowerAfter lowerBetween lowerAfter_cons
  lowerAfter_append lowerBetween_single inRanges ignorableRanges casedRanges)

/-! ### What a pattern shows of a text -/

/-- Whether a pattern character stands for others than itself. -/
def IsWildcard (p : Char) : Prop := p = '%' ∨ p = '_'

instance (p : Char) : Decidable (IsWildcard p) := inferInstanceAs (Decidable (_ ∨ _))

theorem stands_self (p : Char) : Stands p [p] := by
  unfold Stands
  by_cases hrun : p = '%'
  · simp [hrun]
  · by_cases hany : p = '_' <;> simp [hrun, hany]

theorem eq_of_stands {p : Char} (h : ¬IsWildcard p) {piece : List Char} (hpiece : Stands p piece) :
    piece = [p] := by
  obtain ⟨hrun, hany⟩ := not_or.mp h
  simpa [Stands, hrun, hany] using hpiece

theorem Stands.reverse {p : Char} {piece : List Char} (h : Stands p piece) :
    Stands p piece.reverse := by
  by_cases hrun : p = '%'
  · simp [Stands, hrun]
  · obtain ⟨c, -, rfl⟩ := (stands_iff_fits hrun).mp h
    exact h

/-- Whether the next character with case, past those that do not count, comes before one without,
if the pattern of a text shows that. -/
def casedShown : List Char → Option Bool
  | [] => some false
  | p :: pattern =>
    if IsWildcard p then none
    else if inRanges ignorableRanges p.toNat then casedShown pattern
    else some (inRanges casedRanges p.toNat)

theorem casedNext_of_shown {pattern : List Char} {pieces : List (List Char)}
    (h : List.Forall₂ Stands pattern pieces) {cased : Bool}
    (hshown : casedShown pattern = some cased) : casedNext pieces.flatten = cased := by
  induction h with
  | nil => exact Option.some.inj hshown
  | @cons p piece pattern pieces hpiece _ ih =>
      unfold casedShown at hshown
      by_cases hwild : IsWildcard p
      · rw [if_pos hwild] at hshown
        cases hshown
      · rw [if_neg hwild] at hshown
        rw [eq_of_stands hwild hpiece, List.flatten_cons, List.singleton_append, casedNext_cons]
        by_cases hignorable : inRanges ignorableRanges p.toNat = true
        · rw [if_pos hignorable] at hshown ⊢
          exact ih hshown
        · rw [if_neg hignorable] at hshown ⊢
          exact Option.some.inj hshown

/-- A pattern shows what it says itself. -/
theorem casedNext_pattern {pattern : List Char} {cased : Bool}
    (hshown : casedShown pattern = some cased) : casedNext pattern = cased := by
  have hself : List.Forall₂ Stands pattern (pattern.map fun p => [p]) := by
    rw [List.forall₂_map_right_iff, List.forall₂_same]
    exact fun p _ => stands_self p
  have hflatten : (pattern.map fun p => [p]).flatten = pattern := by
    rw [← List.flatMap_def, List.flatMap_singleton']
  exact hflatten ▸ casedNext_of_shown hself hshown

/-- Whether a capital sigma between two parts of a pattern, the one in front read backwards, has
its final form, if the pattern shows that. -/
def finalShown (before rest : List Char) : Option Bool :=
  match casedShown before, casedShown rest with
  | some false, _ => some false
  | _, some true => some false
  | some true, some false => some true
  | _, _ => none

/-- Whether a pattern tells the form of each capital sigma, given what stands in front of it, read
backwards. -/
def settledAfter (before : List Char) : List Char → Bool
  | [] => true
  | p :: pattern =>
    (p != 'Σ' || (finalShown before pattern).isSome) && settledAfter (p :: before) pattern

/-- Whether a pattern tells the form of each of its capital sigmas. -/
def settled (pattern : List Char) : Bool := settledAfter [] pattern

theorem casedNext_both {before rest : List Char} {behind pieces : List (List Char)}
    (hbefore : List.Forall₂ Stands before behind) (hrest : List.Forall₂ Stands rest pieces)
    (hshown : (finalShown before rest).isSome = true) :
    (casedNext behind.flatten && !casedNext pieces.flatten)
      = (casedNext before && !casedNext rest) := by
  unfold finalShown at hshown
  split at hshown
  · rename_i hfront
    rw [casedNext_of_shown hbefore hfront, casedNext_pattern hfront]
    rfl
  · rename_i hback _
    rw [casedNext_of_shown hrest hback, casedNext_pattern hback, Bool.not_true, Bool.and_false,
      Bool.and_false]
  · rename_i hfront hback
    rw [casedNext_of_shown hbefore hfront, casedNext_pattern hfront,
      casedNext_of_shown hrest hback, casedNext_pattern hback]
  · cases hshown

/-! ### A match in lower case -/

theorem Covers.append_self (same : List Char) {pattern text : List Char} (h : Covers pattern text) :
    Covers (same ++ pattern) (same ++ text) := by
  induction same with
  | nil => exact h
  | cons p same ih => exact covers_cons.mpr ⟨[p], same ++ text, stands_self p, ih, rfl⟩

/-- **Pieces of a text in lower case are pieces for the pattern in lower case**, if the pattern
tells the form of each capital sigma, and no `_` has to stand for the one character that becomes
two. -/
theorem covers_lowerAfter {pattern before : List Char} {pieces behind : List (List Char)}
    (h : List.Forall₂ Stands pattern pieces) (hbefore : List.Forall₂ Stands before behind)
    (hsettled : settledAfter before pattern = true)
    (hdotted : '_' ∈ pattern → 'İ' ∉ pieces.flatten) :
    Covers (lowerAfter before pattern) (lowerAfter behind.flatten pieces.flatten) := by
  induction h generalizing before behind with
  | nil => exact ⟨[], .nil, rfl⟩
  | @cons p piece pattern pieces hpiece hrest ih =>
      obtain ⟨hform, hsettled⟩ := Bool.and_eq_true_iff.mp hsettled
      have hnext := ih (.cons hpiece.reverse hbefore) hsettled fun hany hmem =>
        hdotted (List.mem_cons_of_mem p hany) (List.mem_append_right piece hmem)
      rw [List.flatten_cons] at hnext ⊢
      rw [lowerAfter_cons]
      by_cases hwild : IsWildcard p
      · rcases hwild with rfl | rfl
        · obtain ⟨run, hrun⟩ := lowerAfter_append behind.flatten piece pieces.flatten
          rw [hrun]
          exact covers_run.mpr ⟨run, _, hnext, rfl⟩
        · obtain ⟨c, -, rfl⟩ := (stands_iff_fits (by decide)).mp hpiece
          have hc : c ≠ 'İ' := by
            rintro rfl
            exact hdotted List.mem_cons_self (by simp)
          obtain ⟨small, hsmall⟩ := lowerBetween_single hc behind.flatten pieces.flatten
          rw [List.singleton_append, lowerAfter_cons, hsmall]
          exact (covers_char (by decide)).mpr ⟨small, _, rfl, hnext, rfl⟩
      · obtain rfl : piece = [p] := eq_of_stands hwild hpiece
        have hsame : lowerBetween behind.flatten p pieces.flatten
            = lowerBetween before p pattern := by
          unfold lowerBetween
          by_cases hsigma : p = 'Σ'
          · have hshown : (finalShown before pattern).isSome = true := by simpa [hsigma] using hform
            rw [if_pos hsigma, if_pos hsigma, casedNext_both hbefore hrest hshown]
          · rw [if_neg hsigma, if_neg hsigma]
        rw [List.singleton_append, lowerAfter_cons, hsame]
        exact hnext.append_self _

/-- A text that matches a pattern matches it in lower case. -/
theorem matchChars_lower {pattern text : List Char} (h : matchChars pattern text = true)
    (hsettled : settled pattern = true) (hdotted : '_' ∈ pattern → 'İ' ∉ text) :
    matchChars (Text.lower pattern) (Text.lower text) = true := by
  obtain ⟨pieces, hpieces, rfl⟩ := matchChars_iff_covers.mp h
  exact matchChars_iff_covers.mpr (covers_lowerAfter hpieces .nil hsettled hdotted)

end Like

/-! ### Rows -/

namespace Database

open Like (matchValue settled)

/-- What matches a pattern is no null. -/
theorem matches_iff {ignoreCase : Bool} {stored pattern : Json} :
    (!stored.isNull && matchValue ignoreCase stored pattern) = true
      ↔ matchValue ignoreCase stored pattern = true := by
  cases stored <;> simp [Json.isNull, matchValue]

theorem satisfies_like_iff {row : Row} {column : String} {value : Const} :
    satisfies row (⟨column, .like, some value⟩, some value.toJson) = true
      ↔ matchValue false (columnValue row column) value.toJson = true :=
  matches_iff

theorem satisfies_ilike_iff {row : Row} {column : String} {value : Const} :
    satisfies row (⟨column, .ilike, some value⟩, some value.toJson) = true
      ↔ matchValue true (columnValue row column) value.toJson = true :=
  matches_iff

/-- **A row that is kept by a pattern is kept when case is ignored**, for every text and pattern
where the pattern tells the form of each of its capital sigmas, and no `İ` has to be taken by a
`_`. -/
theorem satisfies_ignoring_case {row : Row} {column : String} {value : Const}
    (h : satisfies row (⟨column, .like, some value⟩, some value.toJson) = true)
    (hlower : ∀ text pattern, columnValue row column = .str text → value.toJson = .str pattern →
      settled pattern.toList = true ∧ ('_' ∈ pattern.toList → 'İ' ∉ text.toList)) :
    satisfies row (⟨column, .ilike, some value⟩, some value.toJson) = true := by
  rw [satisfies_like_iff] at h
  rw [satisfies_ilike_iff]
  unfold matchValue at h
  split at h
  · rename_i text pattern hcolumn hvalue
    obtain ⟨hsettled, hdotted⟩ := hlower text pattern hcolumn hvalue
    rw [hcolumn, hvalue]
    exact Like.matchChars_lower h hsettled hdotted
  · cases h

/-- A pattern with both signs and with a sigma at either end of a word. -/
theorem satisfies_ignoring_case_title :
    satisfies [("title", .str "ΣΟΦΟΣ ΑΝΔΡΑΣ")]
        (⟨"title", .like, some (.string "ΣΟ_%ΑΣ")⟩, some (.str "ΣΟ_%ΑΣ")) = true
      ∧ settled "ΣΟ_%ΑΣ".toList = true ∧ 'İ' ∉ "ΣΟΦΟΣ ΑΝΔΡΑΣ".toList
      ∧ satisfies [("title", .str "ΣΟΦΟΣ ΑΝΔΡΑΣ")]
        (⟨"title", .ilike, some (.string "ΣΟ_%ΑΣ")⟩, some (.str "ΣΟ_%ΑΣ")) = true := by
  have hlike : satisfies [("title", .str "ΣΟΦΟΣ ΑΝΔΡΑΣ")]
      (⟨"title", .like, some (.string "ΣΟ_%ΑΣ")⟩, some (.str "ΣΟ_%ΑΣ")) = true := by
    decide +kernel
  have hsettled : settled "ΣΟ_%ΑΣ".toList = true := by decide +kernel
  have hdotted : 'İ' ∉ "ΣΟΦΟΣ ΑΝΔΡΑΣ".toList := by decide
  refine ⟨hlike, hsettled, hdotted, satisfies_ignoring_case hlike ?_⟩
  intro text pattern htext hpattern
  cases htext
  cases hpattern
  exact ⟨hsettled, fun _ => hdotted⟩

/-- **Ignoring case loses rows**: where a wildcard hides whether a sigma ends a word in the text, or
where a `_` stands for the capital that becomes two characters. -/
theorem satisfies_only_in_case :
    (satisfies [("title", .str "ΟΔΟΣ")]
          (⟨"title", .like, some (.string "%Σ")⟩, some (.str "%Σ")) = true
        ∧ satisfies [("title", .str "ΟΔΟΣ")]
          (⟨"title", .ilike, some (.string "%Σ")⟩, some (.str "%Σ")) = false)
      ∧ satisfies [("title", .str "İZMİR")]
          (⟨"title", .like, some (.string "_ZM_R")⟩, some (.str "_ZM_R")) = true
        ∧ satisfies [("title", .str "İZMİR")]
          (⟨"title", .ilike, some (.string "_ZM_R")⟩, some (.str "_ZM_R")) = false := by
  decide +kernel

end Database

end GraphFetch

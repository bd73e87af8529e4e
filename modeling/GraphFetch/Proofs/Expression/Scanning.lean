/-
Cutting texts into tokens.

Names as long as they can be, marks by themselves, and blanks dropped: that is how a text is cut
here, and the tokens of a scan are those that it is cut into.

A scan goes through its text from the back, and puts a character in front of the name behind it.  So
the lemmas here turn it around: a token stands behind blanks, and what is behind the token is
scanned by itself.  This is all that is used of scanning elsewhere.
-/
import GraphFetch.Expression.Token

namespace GraphFetch

namespace Expression

/-! ### Tokens of a text -/

/-- The marks and their tokens. -/
def marks : List (Char × Token) := [
  ('[', .openList), (']', .closeList), ('(', .openModifiers), (')', .closeModifiers),
  (',', .comma), ('.', .dot), (':', .colon)]

/-- Whether no name goes on with a text. -/
def Ends (text : List Char) : Prop := ∀ c ∈ text.head?, isNameChar c = false

/-- Which tokens a text is cut into. -/
inductive Lexes : List Char → List Token → Prop
  | nil : Lexes [] []
  | blank {c : Char} {text : List Char} {tokens : List Token} (hc : isBlank c = true)
      (htext : Lexes text tokens) : Lexes (c :: text) tokens
  | mark {c : Char} {token : Token} {text : List Char} {tokens : List Token}
      (hc : (c, token) ∈ marks) (htext : Lexes text tokens) : Lexes (c :: text) (token :: tokens)
  | name {run text : List Char} {tokens : List Token} (hne : run ≠ [])
      (hrun : ∀ c ∈ run, isNameChar c = true) (hends : Ends text) (htext : Lexes text tokens) :
      Lexes (run ++ text) (.name run :: tokens)

/-! ### Scanning -/

theorem marks_spec : ∀ mark ∈ marks, isBlank mark.1 = false ∧ isNameChar mark.1 = false
    ∧ Token.ofMark mark.1 = mark.2 := by
  decide

theorem ofMark_cases (c : Char) : Token.ofMark c = .stray c ∨ (c, Token.ofMark c) ∈ marks := by
  unfold Token.ofMark
  repeat' split
  all_goals simp_all [marks]

theorem isBlank_cases {c : Char} (h : isBlank c = true) :
    c = ' ' ∨ c = '\t' ∨ c = '\n' ∨ c = '\x0c' ∨ c = '\r' := by
  simpa only [isBlank, Bool.or_eq_true, beq_iff_eq, or_assoc] using h

theorem isBlank_of_isNameChar {c : Char} (h : isNameChar c = true) : isBlank c = false := by
  cases hblank : isBlank c with
  | false => rfl
  | true =>
      rcases isBlank_cases hblank with rfl | rfl | rfl | rfl | rfl <;> exact absurd h (by decide)

theorem utf8Size_of_isNameChar {c : Char} (h : isNameChar c = true) : c.utf8Size = 1 := by
  have hascii : c.val ≤ 127 := by
    unfold isNameChar Char.isAlphanum Char.isAlpha Char.isUpper Char.isLower Char.isDigit at h
    simp only [Bool.or_eq_true, Bool.and_eq_true, decide_eq_true_eq, beq_iff_eq] at h
    rcases h with (((⟨-, h⟩ | ⟨-, h⟩) | ⟨-, h⟩) | rfl) | rfl
    · exact Nat.le_trans h (by decide)
    · exact Nat.le_trans h (by decide)
    · exact Nat.le_trans h (by decide)
    · decide
    · decide
  exact if_pos hascii

theorem scan_blank {c : Char} (h : isBlank c = true) (offset : Nat) (text : List Char) :
    scan offset (c :: text) = scan (offset + c.utf8Size) text := by
  rw [scan, h]
  rfl

theorem scan_mark {c : Char} (hblank : isBlank c = false) (hname : isNameChar c = false)
    (offset : Nat) (text : List Char) :
    scan offset (c :: text) = ⟨.ofMark c, offset⟩ :: scan (offset + c.utf8Size) text := by
  rw [scan, hblank, hname]
  rfl

/-- A name character before tokens that are no name right behind it is a name by itself. -/
theorem extendName_apart (c : Char) (offset : Nat) {spots : List Spot}
    (h : ∀ chars next, spots.head? = some ⟨.name chars, next⟩ → next ≠ offset + 1) :
    extendName c offset spots = ⟨.name [c], offset⟩ :: spots := by
  unfold extendName
  split
  · rename_i chars next rest
    rw [if_neg (h chars next rfl)]
  · rfl

/-- Tokens start no earlier than the text. -/
theorem le_offset_of_mem_scan (offset : Nat) (text : List Char) :
    ∀ spot ∈ scan offset text, offset ≤ spot.offset := by
  induction text generalizing offset with
  | nil => simp [scan]
  | cons c rest ih =>
      have hlater : ∀ spot ∈ scan (offset + c.utf8Size) rest, offset ≤ spot.offset :=
        fun spot hspot => Nat.le_trans (Nat.le_add_right _ _) (ih _ spot hspot)
      intro spot hspot
      rw [scan] at hspot
      split at hspot
      · exact hlater spot hspot
      · split at hspot
        · unfold extendName at hspot
          split at hspot
          · rename_i chars next more hscan
            split at hspot
            · rcases List.mem_cons.mp hspot with rfl | hspot
              · exact Nat.le_refl _
              · exact hlater spot (hscan ▸ List.mem_cons_of_mem _ hspot)
            · rcases List.mem_cons.mp hspot with rfl | hspot
              · exact Nat.le_refl _
              · exact hlater spot (hscan ▸ hspot)
          · rcases List.mem_cons.mp hspot with rfl | hspot
            · exact Nat.le_refl _
            · exact hlater spot hspot
        · rcases List.mem_cons.mp hspot with rfl | hspot
          · exact Nat.le_refl _
          · exact hlater spot hspot

/-- A text that no name goes on with does not begin with a name. -/
theorem head_scan_of_ends {text : List Char} (h : Ends text) (offset : Nat) {chars : List Char}
    {next : Nat} (hhead : (scan offset text).head? = some ⟨.name chars, next⟩) : next ≠ offset := by
  cases text with
  | nil => exact absurd hhead (by simp [scan])
  | cons c rest =>
      have hname : isNameChar c = false := h c rfl
      cases hblank : isBlank c with
      | true =>
          rw [scan_blank hblank] at hhead
          have hlater := le_offset_of_mem_scan (offset + c.utf8Size) rest _
            (List.mem_of_mem_head? hhead)
          have hsize : 0 < c.utf8Size := c.utf8Size_pos
          dsimp only at hlater
          omega
      | false =>
          rw [scan_mark hblank hname] at hhead
          have htoken : Token.ofMark c = .name chars :=
            congrArg Spot.token (Option.some.inj hhead)
          rcases ofMark_cases c with hstray | hmark
          · exact nomatch hstray.symm.trans htoken
          · rw [htoken] at hmark
            exact absurd hmark (by simp [marks])

/-- A name is one token. -/
theorem scan_name {run : List Char} (hne : run ≠ []) (hrun : ∀ c ∈ run, isNameChar c = true)
    (offset : Nat) {text : List Char} (hends : Ends text) :
    scan offset (run ++ text) = ⟨.name run, offset⟩ :: scan (offset + run.length) text := by
  induction run generalizing offset with
  | nil => exact absurd rfl hne
  | cons c more ih =>
      have hc := hrun c List.mem_cons_self
      rw [List.cons_append, scan, isBlank_of_isNameChar hc, hc, utf8Size_of_isNameChar hc]
      simp only [Bool.false_eq_true, if_false, if_true]
      cases more with
      | nil =>
          exact extendName_apart c offset fun chars next hhead => head_scan_of_ends hends _ hhead
      | cons d more =>
          rw [ih (by simp) (fun c hc => hrun c (List.mem_cons_of_mem _ hc))]
          simp only [extendName, if_true, List.length_cons]
          congr 2
          omega

/-- The characters of a token. -/
def Token.chars : Token → List Char
  | .name chars => chars
  | token => [token.firstChar]

/-- How many bytes a text takes. -/
def byteLength (text : List Char) : Nat := (String.ofList text).utf8ByteSize

theorem byteLength_nil : byteLength [] = 0 := rfl

theorem byteLength_append (text other : List Char) :
    byteLength (text ++ other) = byteLength text + byteLength other := by
  simp [byteLength, String.ofList_append, String.utf8ByteSize_append]

theorem byteLength_cons (c : Char) (text : List Char) :
    byteLength (c :: text) = c.utf8Size + byteLength text := by
  rw [← List.singleton_append, byteLength_append]
  simp [byteLength]

theorem byteLength_toList (input : String) : byteLength input.toList = input.utf8ByteSize := by
  simp [byteLength]

theorem byteLength_names {run : List Char} (hrun : ∀ c ∈ run, isNameChar c = true) :
    byteLength run = run.length := by
  induction run with
  | nil => rfl
  | cons c more ih =>
      rw [byteLength_cons, utf8Size_of_isNameChar (hrun c List.mem_cons_self),
        ih fun d hd => hrun d (List.mem_cons_of_mem _ hd), List.length_cons, Nat.add_comm]

/-- Which tokens are cut from a text in front of another one. -/
inductive Cut : Token → List Char → Prop
  | mark {c : Char} (hblank : isBlank c = false) (hname : isNameChar c = false)
      (behind : List Char) : Cut (.ofMark c) behind
  | name {run behind : List Char} (hne : run ≠ []) (hrun : ∀ c ∈ run, isNameChar c = true)
      (hends : Ends behind) : Cut (.name run) behind

theorem chars_ofMark (c : Char) : (Token.ofMark c).chars = [c] := by
  rcases ofMark_cases c with hstray | hmark
  · rw [hstray]
    rfl
  · generalize Token.ofMark c = token at hmark
    simp only [marks, List.mem_cons, Prod.mk.injEq, List.not_mem_nil, or_false] at hmark
    rcases hmark with ⟨rfl, rfl⟩ | ⟨rfl, rfl⟩ | ⟨rfl, rfl⟩ | ⟨rfl, rfl⟩ | ⟨rfl, rfl⟩ | ⟨rfl, rfl⟩ |
      ⟨rfl, rfl⟩ <;> rfl

/-- A token and what is behind it. -/
theorem scan_cut {token : Token} {behind : List Char} (h : Cut token behind) (offset : Nat) :
    scan offset (token.chars ++ behind)
      = ⟨token, offset⟩ :: scan (offset + byteLength token.chars) behind := by
  cases h with
  | mark hblank hname =>
      rename_i c
      rw [chars_ofMark, List.singleton_append, scan_mark hblank hname, byteLength_cons]
      rfl
  | name hne hrun hends =>
      rename_i run
      show scan offset (run ++ behind) = _ :: scan (offset + byteLength run) behind
      rw [scan_name hne hrun offset hends, byteLength_names hrun]

theorem scan_blanks {blanks : List Char} (h : ∀ c ∈ blanks, isBlank c = true) (offset : Nat)
    (text : List Char) : scan offset (blanks ++ text) = scan (offset + byteLength blanks) text := by
  induction blanks generalizing offset with
  | nil => rfl
  | cons c more ih =>
      rw [List.cons_append, scan_blank (h c List.mem_cons_self),
        ih (fun d hd => h d (List.mem_cons_of_mem _ hd)), byteLength_cons, Nat.add_assoc]

/-- A text without tokens is blank, and another one begins with a token behind blanks. -/
theorem blank_or_cut (text : List Char) :
    (∀ c ∈ text, isBlank c = true)
      ∨ ∃ blanks token behind, text = blanks ++ (token.chars ++ behind)
        ∧ (∀ c ∈ blanks, isBlank c = true) ∧ Cut token behind := by
  induction text with
  | nil => exact Or.inl (by simp)
  | cons c rest ih =>
      cases hblank : isBlank c with
      | true =>
          obtain hrest | ⟨blanks, token, behind, rfl, hblanks, hcut⟩ := ih
          · exact Or.inl (List.forall_mem_cons.mpr ⟨hblank, hrest⟩)
          · exact Or.inr ⟨c :: blanks, token, behind, rfl,
              List.forall_mem_cons.mpr ⟨hblank, hblanks⟩, hcut⟩
      | false =>
          right
          cases hname : isNameChar c with
          | false =>
              exact ⟨[], .ofMark c, rest, by rw [chars_ofMark]; rfl, by simp, .mark hblank hname _⟩
          | true =>
              let run := (c :: rest).takeWhile isNameChar
              let behind := (c :: rest).dropWhile isNameChar
              have hsplit : run ++ behind = c :: rest := List.takeWhile_append_dropWhile
              have hne : run ≠ [] := by simp [run, hname]
              have hrun : ∀ d ∈ run, isNameChar d = true := List.all_eq_true.mp List.all_takeWhile
              have hends : Ends behind := fun d hd => by
                have hhead := List.head?_dropWhile_not isNameChar (c :: rest)
                rw [show List.head? ((c :: rest).dropWhile isNameChar) = some d from hd] at hhead
                simpa using hhead
              exact ⟨[], .name run, behind, hsplit.symm, by simp, .name hne hrun hends⟩

/-- What is in front of the first token, and what is behind it. -/
theorem scan_cons {offset : Nat} {text : List Char} {spot : Spot} {rest : List Spot}
    (h : scan offset text = spot :: rest) :
    ∃ blanks behind, text = blanks ++ (spot.token.chars ++ behind)
      ∧ (∀ c ∈ blanks, isBlank c = true) ∧ Cut spot.token behind
      ∧ spot.offset = offset + byteLength blanks
      ∧ scan (spot.offset + byteLength spot.token.chars) behind = rest := by
  obtain hblank | ⟨blanks, token, behind, rfl, hblanks, hcut⟩ := blank_or_cut text
  · have hnone := scan_blanks hblank offset []
    rw [List.append_nil, h] at hnone
    exact nomatch hnone
  · rw [scan_blanks hblanks, scan_cut hcut] at h
    cases h
    exact ⟨blanks, behind, rfl, hblanks, hcut, rfl, rfl⟩

/-- A text is scanned as it is cut. -/
theorem scan_of_lexes {text : List Char} {tokens : List Token} (h : Lexes text tokens)
    (offset : Nat) : (scan offset text).map Spot.token = tokens := by
  induction h generalizing offset with
  | nil => rfl
  | blank hc _ ih =>
      rw [scan_blank hc]
      exact ih _
  | mark hc _ ih =>
      obtain ⟨hblank, hname, htoken⟩ := marks_spec _ hc
      rw [scan_mark hblank hname, List.map_cons, ih]
      exact congrArg (· :: _) htoken
  | name hne hrun hends _ ih =>
      rw [scan_name hne hrun offset hends, List.map_cons, ih]

theorem Lexes.blanks {blanks text : List Char} {tokens : List Token}
    (h : ∀ c ∈ blanks, isBlank c = true) (htext : Lexes text tokens) :
    Lexes (blanks ++ text) tokens := by
  induction blanks with
  | nil => exact htext
  | cons c more ih =>
      exact .blank (h c List.mem_cons_self) (ih fun d hd => h d (List.mem_cons_of_mem _ hd))

/-- A token that is cut from a text is one of the grammar unless it is a character left over. -/
theorem Lexes.cut {token : Token} {behind : List Char} {tokens : List Token} (h : Cut token behind)
    (hstray : ∀ c, token ≠ .stray c) (hbehind : Lexes behind tokens) :
    Lexes (token.chars ++ behind) (token :: tokens) := by
  cases h with
  | mark hblank hname =>
      rename_i c
      rw [chars_ofMark]
      exact .mark ((ofMark_cases c).resolve_left (hstray c)) hbehind
  | name hne hrun hends => exact .name hne hrun hends hbehind

/-- A text that is scanned without characters that are left over is cut as it is scanned. -/
theorem lexes_of_scan {text : List Char} {offset : Nat}
    (h : ∀ c, Token.stray c ∉ (scan offset text).map Spot.token) :
    Lexes text ((scan offset text).map Spot.token) := by
  induction hspots : scan offset text generalizing text offset with
  | nil =>
      obtain hblank | ⟨blanks, token, behind, rfl, hblanks, hcut⟩ := blank_or_cut text
      · have hlexes : Lexes (text ++ []) [] := .blanks hblank .nil
        rwa [List.append_nil] at hlexes
      · rw [scan_blanks hblanks, scan_cut hcut] at hspots
        exact nomatch hspots
  | cons spot rest ih =>
      rw [hspots, List.map_cons] at h
      obtain ⟨blanks, behind, rfl, hblanks, hcut, -, rfl⟩ := scan_cons hspots
      refine .blanks hblanks (.cut hcut (fun c heq => h c (heq ▸ List.mem_cons_self)) ?_)
      exact ih (fun c hc => h c (List.mem_cons_of_mem _ hc)) rfl

end Expression

end GraphFetch

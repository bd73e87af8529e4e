/-
Where a text stops being an expression.

The offset of a failure parts the text.  What is before it has been cut into tokens that the machine
takes, and they are cut the same whatever follows, as long as no name runs on into it.  So what is
before the offset is an expression with the completion of the machine's state behind a blank.

Of what follows the offset the first byte is enough to refuse it.  A byte below 128 is a character
by itself, and a name goes on the same with any character of names; a higher byte begins a character
that is no part of any expression, whichever it turns out to be.
-/
import GraphFetch.Proofs.Expression.Machine

namespace GraphFetch

namespace Expression

/-! ### Parting a text between its tokens -/

theorem Cut.congr {token : Token} {behind other : List Char} (h : Cut token behind)
    (hends : Ends behind → Ends other) : Cut token other := by
  cases h with
  | mark hblank hname => exact .mark hblank hname other
  | name hne hrun hbehind => exact .name hne hrun (hends hbehind)

theorem Cut.notBlank {token : Token} {behind : List Char} (h : Cut token behind) :
    ∀ c ∈ (token.chars ++ behind).head?, isBlank c = false := by
  intro c hc
  cases h with
  | mark hblank hname =>
      rw [chars_ofMark] at hc
      cases hc
      exact hblank
  | name hne hrun hends =>
      obtain ⟨first, more, rfl⟩ := List.exists_cons_of_ne_nil hne
      cases hc
      exact isBlank_of_isNameChar (hrun c List.mem_cons_self)

/-- A text whose first part is cut into tokens by itself, whatever follows that no name runs on
into if none runs on into the second part. -/
structure Parted (offset : Nat) (front : List Spot) (before after : List Char) : Prop where
  scan_eq : ∀ other, (Ends after → Ends other) →
    scan offset (before ++ other) = front ++ scan (offset + byteLength before) other
  notBlank : ∀ c ∈ after.head?, isBlank c = false

/-- A text is parted in front of any of its tokens. -/
theorem parted_of_scan {offset : Nat} {text : List Char} {front rest : List Spot}
    (h : scan offset text = front ++ rest) :
    ∃ before after, text = before ++ after ∧ Parted offset front before after := by
  induction front generalizing offset text with
  | nil =>
      obtain hblank | ⟨blanks, token, behind, rfl, hblanks, hcut⟩ := blank_or_cut text
      · exact ⟨text, [], (List.append_nil _).symm, fun other _ => scan_blanks hblank offset other,
          by simp⟩
      · refine ⟨blanks, token.chars ++ behind, rfl, fun other _ => scan_blanks hblanks offset other,
          hcut.notBlank⟩
  | cons spot front ih =>
      obtain ⟨blanks, behind, rfl, hblanks, hcut, hoffset, hbehind⟩ := scan_cons h
      obtain ⟨before, after, rfl, hparted⟩ := ih hbehind
      refine ⟨blanks ++ (spot.token.chars ++ before), after, by simp, fun other hother => ?_,
        hparted.notBlank⟩
      have hcut' : Cut spot.token (before ++ other) := hcut.congr fun hends => by
        cases before with
        | nil => exact hother hends
        | cons c more => exact hends
      rw [List.append_assoc, List.append_assoc, scan_blanks hblanks, ← hoffset, scan_cut hcut',
        hparted.scan_eq other hother, byteLength_append, byteLength_append, List.cons_append]
      congr 2
      simp only [hoffset, Nat.add_assoc]

/-- What a token looks like from its first character. -/
def tokenOf (c : Char) : Token := if isNameChar c then .name [c] else .ofMark c

/-- Where no blank stands, a token begins, and the first character says whether it can stand. -/
theorem scan_head {c : Char} (hblank : isBlank c = false) (offset : Nat) (text : List Char) :
    ∃ token rest, scan offset (c :: text) = ⟨token, offset⟩ :: rest
      ∧ ∀ s : State, s.next token = s.next (tokenOf c) := by
  obtain hblanks | ⟨blanks, token, behind, htext, hblanks, hcut⟩ := blank_or_cut (c :: text)
  · exact nomatch hblank.symm.trans (hblanks c List.mem_cons_self)
  · cases blanks with
    | cons d blanks =>
        obtain rfl := (List.cons.inj htext).1
        exact nomatch hblank.symm.trans (hblanks c List.mem_cons_self)
    | nil =>
        refine ⟨token, _, by rw [htext, List.nil_append, scan_cut hcut], fun s => ?_⟩
        cases hcut with
        | mark _ hname =>
            rw [chars_ofMark] at htext
            obtain rfl := (List.cons.inj htext).1
            rw [tokenOf, hname]
            rfl
        | name hne hrun _ =>
            obtain ⟨d, more, rfl⟩ := List.exists_cons_of_ne_nil hne
            obtain rfl := (List.cons.inj htext).1
            rw [tokenOf, hrun c List.mem_cons_self]
            exact s.next_name _ _

/-- The tokens behind the part of a text are those of what follows it. -/
theorem Parted.rest_eq {offset : Nat} {front rest : List Spot} {before after : List Char}
    (h : Parted offset front before after) (hscan : scan offset (before ++ after) = front ++ rest) :
    rest = scan (offset + byteLength before) after := by
  rw [h.scan_eq after id] at hscan
  exact (List.append_cancel_left hscan).symm

/-! ### Before the offset -/

theorem parse_accepted_iff {input : String} :
    (∃ nodes, parse input = .ok nodes)
      ↔ scan 0 input.toList = [] ∨ Accepts ((scan 0 input.toList).map Spot.token) := by
  rw [← readAll_ok_iff]
  exact exists_congr fun nodes => parse_ok

/-- The text of a state's completion, which a blank keeps apart from names. -/
def State.completionChars (s : State) : List Char := ' ' :: s.completion.flatMap Token.chars

theorem lexes_closeLists (depth : Nat) :
    Lexes ((List.replicate depth Token.closeList).flatMap Token.chars)
      (List.replicate depth .closeList) := by
  induction depth with
  | zero => exact .nil
  | succ depth ih => exact .mark (by decide) ih

theorem ends_closeLists (depth : Nat) :
    Ends ((List.replicate depth Token.closeList).flatMap Token.chars) := by
  cases depth with
  | zero => nofun
  | succ depth =>
      rintro c ⟨⟩
      decide

theorem State.lexes_completion (s : State) : Lexes s.completionChars s.completion := by
  obtain ⟨place, depth⟩ := s
  have hclose := lexes_closeLists depth
  have hname : ∀ c ∈ ['x'], isNameChar c = true := List.forall_mem_singleton.mpr (by decide)
  rw [completionChars, completion, List.flatMap_append]
  refine .blank (by decide) ?_
  cases place with
  | list | segment | aliased =>
      exact .name (List.cons_ne_nil 'x' []) hname (ends_closeLists depth) hclose
  | modifier =>
      have hends : Ends (')' :: (List.replicate depth Token.closeList).flatMap Token.chars) := by
        rintro c ⟨⟩
        decide
      exact .name (List.cons_ne_nil 'x' []) hname hends (.mark (by decide) hclose)
  | modifiers => exact .mark (by decide) hclose
  | named | relation | modified | closed => exact hclose

/-- Whether the machine gets to a state by the first part of a text, whatever follows that no name
runs on into if none runs on into the second part. -/
def Reaches (before after : List Char) (s : State) : Prop :=
  ∃ front, Parted 0 front before after ∧ State.start.run (front.map Spot.token) = some s

/-- What the machine has taken can be completed. -/
theorem Reaches.accepted {before after : List Char} {s : State} (h : Reaches before after s) :
    ∃ nodes, parse (String.ofList (before ++ s.completionChars)) = .ok nodes := by
  obtain ⟨front, hparted, hrun⟩ := h
  obtain ⟨last, hlast, hfinal⟩ := s.run_completion
  rw [parse_accepted_iff, String.toList_ofList]
  have hends : Ends s.completionChars := by
    rintro c ⟨⟩
    decide
  refine Or.inr ⟨last, ?_, hfinal⟩
  rw [hparted.scan_eq _ fun _ => hends, List.map_append, State.run_append, hrun,
    scan_of_lexes s.lexes_completion]
  exact hlast

/-- A failure points behind what the machine takes, where it is stuck. -/
theorem parse_error_reaches {input : String} {error : ExpressionError}
    (h : parse input = .error error) :
    ∃ before after s, input.toList = before ++ after ∧ error.offset = byteLength before
      ∧ Reaches before after s ∧ ∀ c ∈ after.head?, s.next (tokenOf c) = none := by
  have htracks := readAll_tracks (scan 0 input.toList)
  unfold parse at h
  split at h
  · cases h
  · rename_i fault rest hall
    cases h
    rw [hall] at htracks
    obtain ⟨s, ⟨front, hscan, hrun⟩, hstuck⟩ := htracks
    obtain ⟨before, after, htext, hparted⟩ := parted_of_scan hscan
    obtain rfl := hparted.rest_eq (htext ▸ hscan)
    refine ⟨before, after, s, htext, ?_, ⟨front, hparted, hrun⟩, ?_⟩
    · cases after with
      | nil =>
          rw [List.append_nil] at htext
          rw [← byteLength_toList, htext]
          rfl
      | cons c more =>
          obtain ⟨token, others, hhead, -⟩ := scan_head (hparted.notBlank c rfl)
            (0 + byteLength before) more
          rw [hhead]
          exact Nat.zero_add _
    · intro c hc
      obtain ⟨more, rfl⟩ := List.head?_eq_some_iff.mp hc
      obtain ⟨token, others, hhead, hnext⟩ := scan_head (hparted.notBlank c rfl)
        (0 + byteLength before) more
      rw [hhead] at hstuck
      exact (hnext s).symm.trans hstuck

/-! ### Bytes -/

/-- The bytes of a text. -/
def bytes (text : String) : List UInt8 := text.toByteArray.data.toList

theorem bytes_ofList (text : List Char) :
    bytes (String.ofList text) = text.flatMap String.utf8EncodeChar := by
  rw [bytes, String.toByteArray_ofList, List.utf8Encode, List.data_toByteArray]

theorem bytes_eq (text : String) : bytes text = text.toList.flatMap String.utf8EncodeChar := by
  rw [← bytes_ofList, String.ofList_toList]

theorem length_bytes (text : String) : (bytes text).length = text.utf8ByteSize := by
  rw [bytes, Array.length_toList]
  rfl

/-- Whether a text begins with the first bytes of another one. -/
def Extends (other input : String) (count : Nat) : Prop :=
  (bytes input).take count <+: bytes other

theorem byteLength_eq (text : List Char) :
    byteLength text = (text.flatMap String.utf8EncodeChar).length := by
  rw [← bytes_ofList, length_bytes, byteLength]

instance (other input : String) (count : Nat) : Decidable (Extends other input count) :=
  inferInstanceAs (Decidable (_ <+: _))

/-- A text is extended behind any of its characters. -/
theorem extends_append (before after more : List Char) :
    Extends (String.ofList (before ++ more)) (String.ofList (before ++ after))
      (byteLength before) := by
  rw [Extends, bytes_ofList, bytes_ofList, List.flatMap_append, List.flatMap_append, byteLength_eq,
    List.take_left]
  exact List.prefix_append _ _

/-- The first byte of a character. -/
def firstByte (c : Char) : Option UInt8 := (String.utf8EncodeChar c).head?

theorem firstByte_ascii {c : Char} (h : c.toNat < 128) :
    firstByte c = some (UInt8.ofNat c.toNat) := by
  have hle : c.val.toNat ≤ 127 := Nat.le_of_lt_succ h
  rw [firstByte, String.utf8EncodeChar]
  simp only [hle, if_true]
  rfl

theorem firstByte_wide {c : Char} (h : 128 ≤ c.toNat) :
    ∃ byte, firstByte c = some byte ∧ 128 ≤ byte.toNat := by
  have hle : ¬ c.val.toNat ≤ 127 := Nat.not_le_of_lt h
  rw [firstByte, String.utf8EncodeChar]
  simp only [hle, if_false]
  split
  · refine ⟨_, rfl, ?_⟩
    rw [UInt8.toNat_ofNat']
    omega
  · split
    · refine ⟨_, rfl, ?_⟩
      rw [UInt8.toNat_ofNat']
      omega
    · refine ⟨_, rfl, ?_⟩
      rw [UInt8.toNat_ofNat']
      omega

/-- A first byte tells the characters below 128 from all others. -/
theorem eq_or_wide_of_firstByte {c d : Char} (h : firstByte d = firstByte c) :
    d = c ∨ (128 ≤ c.toNat ∧ 128 ≤ d.toNat) := by
  by_cases hc : c.toNat < 128
  · rw [firstByte_ascii hc] at h
    by_cases hd : d.toNat < 128
    · rw [firstByte_ascii hd] at h
      have hbyte := congrArg UInt8.toNat (Option.some.inj h)
      rw [UInt8.toNat_ofNat', UInt8.toNat_ofNat', Nat.mod_eq_of_lt (by omega),
        Nat.mod_eq_of_lt (by omega)] at hbyte
      exact Or.inl (Char.toNat_inj.mp hbyte)
    · obtain ⟨byte, hfirst, hwide⟩ := firstByte_wide (Nat.not_lt.mp hd)
      obtain rfl := Option.some.inj (hfirst.symm.trans h)
      rw [UInt8.toNat_ofNat', Nat.mod_eq_of_lt (by omega)] at hwide
      omega
  · by_cases hd : d.toNat < 128
    · obtain ⟨byte, hfirst, hwide⟩ := firstByte_wide (Nat.not_lt.mp hc)
      rw [firstByte_ascii hd, hfirst] at h
      obtain rfl := Option.some.inj h
      rw [UInt8.toNat_ofNat', Nat.mod_eq_of_lt (by omega)] at hwide
      omega
    · exact Or.inr ⟨Nat.not_lt.mp hc, Nat.not_lt.mp hd⟩

/-- The bytes of some characters are in front of those of a text only where the characters are. -/
theorem prefix_of_bytes {text : List Char} {other : String}
    (h : text.flatMap String.utf8EncodeChar <+: bytes other) : text <+: other.toList := by
  obtain ⟨more, hmore⟩ := h
  refine List.isPrefix_of_utf8Encode_append_eq_utf8Encode more.toByteArray ?_
  rw [bytes_eq] at hmore
  rw [List.utf8Encode, List.utf8Encode, ← hmore, List.toByteArray_append]

/-- A text with one more byte than some characters of another one has those characters, and behind
them a character with that byte. -/
theorem Extends.toList_eq {other input : String} {before after : List Char} {c : Char}
    (h : Extends other input (byteLength before + 1))
    (hinput : input.toList = before ++ c :: after) :
    ∃ d behind, other.toList = before ++ d :: behind ∧ firstByte d = firstByte c := by
  obtain ⟨byte, more, hbyte⟩ := List.exists_cons_of_ne_nil (@String.utf8EncodeChar_ne_nil c)
  have hbytes : before.flatMap String.utf8EncodeChar ++ [byte] <+: bytes other := by
    have htake : (bytes input).take (byteLength before + 1)
        = before.flatMap String.utf8EncodeChar ++ [byte] := by
      rw [bytes_eq, hinput, List.flatMap_append, List.flatMap_cons, hbyte, byteLength_eq,
        List.take_length_add_append]
      rfl
    rw [← htake]
    exact h
  obtain ⟨rest, hrest⟩ := prefix_of_bytes ((List.prefix_append _ _).trans hbytes)
  rw [bytes_eq, ← hrest, List.flatMap_append, List.prefix_append_right_inj] at hbytes
  cases rest with
  | nil => simp at hbytes
  | cons d behind =>
      refine ⟨d, behind, hrest.symm, ?_⟩
      obtain ⟨first, others, hfirst⟩ := List.exists_cons_of_ne_nil (@String.utf8EncodeChar_ne_nil d)
      rw [List.flatMap_cons, hfirst, List.cons_append, List.cons_prefix_cons] at hbytes
      rw [firstByte, firstByte, hfirst, hbyte, hbytes.1]
      rfl

/-! ### Behind the offset -/

/-- Whether two characters are the same to a scan and to the machine. -/
structure Alike (c d : Char) : Prop where
  isBlank_eq : isBlank d = isBlank c
  isNameChar_eq : isNameChar d = isNameChar c
  next_eq : ∀ s : State, s.next (tokenOf d) = s.next (tokenOf c)

theorem isBlank_of_wide {c : Char} (h : 128 ≤ c.toNat) : isBlank c = false := by
  cases hblank : isBlank c with
  | false => rfl
  | true =>
      rcases isBlank_cases hblank with rfl | rfl | rfl | rfl | rfl <;> exact absurd h (by decide)

theorem isNameChar_of_wide {c : Char} (h : 128 ≤ c.toNat) : isNameChar c = false := by
  cases hname : isNameChar c with
  | false => rfl
  | true =>
      have hascii : c.val.toNat ≤ 127 := Char.utf8Size_eq_one_iff.mp (utf8Size_of_isNameChar hname)
      exact absurd hascii (Nat.not_le_of_lt h)

theorem marks_ascii : ∀ mark ∈ marks, mark.1.toNat < 128 := by decide

theorem tokenOf_of_wide {c : Char} (h : 128 ≤ c.toNat) : tokenOf c = .stray c := by
  rw [tokenOf, isNameChar_of_wide h]
  exact (ofMark_cases c).resolve_right fun hmark =>
    absurd h (Nat.not_le_of_lt (marks_ascii _ hmark))

theorem alike_of_firstByte {c d : Char} (h : firstByte d = firstByte c) : Alike c d := by
  obtain rfl | ⟨hc, hd⟩ := eq_or_wide_of_firstByte h
  · exact ⟨rfl, rfl, fun _ => rfl⟩
  · refine ⟨?_, ?_, fun s => ?_⟩
    · rw [isBlank_of_wide hc, isBlank_of_wide hd]
    · rw [isNameChar_of_wide hc, isNameChar_of_wide hd]
    · rw [tokenOf_of_wide hc, tokenOf_of_wide hd, s.next_stray, s.next_stray]

/-- No expression goes on with a character at which the machine is stuck, nor with one like it. -/
theorem Reaches.refused {before after behind : List Char} {c d : Char} {s : State} {other : String}
    (h : Reaches before (c :: after) s) (hstuck : s.next (tokenOf c) = none) (halike : Alike c d)
    (hother : other.toList = before ++ d :: behind) (nodes : List RelationNode) :
    parse other ≠ .ok nodes := by
  obtain ⟨front, hparted, hrun⟩ := h
  intro hparse
  have hends : Ends (c :: after) → Ends (d :: behind) := by
    intro hends e he
    cases he
    exact halike.isNameChar_eq.trans (hends c rfl)
  have hblank : isBlank d = false := halike.isBlank_eq.trans (hparted.notBlank c rfl)
  obtain ⟨token, rest, hhead, hnext⟩ := scan_head hblank (0 + byteLength before) behind
  have hscan : scan 0 other.toList = front ++ ⟨token, 0 + byteLength before⟩ :: rest := by
    rw [hother, hparted.scan_eq _ hends, hhead]
  have hrefused : s.Stuck (⟨token, 0 + byteLength before⟩ :: rest) :=
    (hnext s).trans ((halike.next_eq s).trans hstuck)
  have haccepted := parse_accepted_iff.mp ⟨nodes, hparse⟩
  rw [hscan] at haccepted
  obtain hnil | haccepts := haccepted
  · exact absurd hnil (by simp)
  · exact hrefused.not_accepts ⟨front, rfl, hrun⟩ haccepts

/-! ### Offsets -/

/-- Every token is a part of the text, at the byte where it starts. -/
theorem spot_parts {input : String} {spot : Spot} (h : spot ∈ scan 0 input.toList) :
    ∃ before after : String, input = before ++ String.ofList spot.token.chars ++ after
      ∧ spot.offset = before.utf8ByteSize := by
  obtain ⟨front, rest, hscan⟩ := List.append_of_mem h
  obtain ⟨before, after, htext, hparted⟩ := parted_of_scan hscan
  obtain ⟨blanks, behind, rfl, hblanks, -, hoffset, -⟩ :=
    scan_cons (hparted.rest_eq (htext ▸ hscan)).symm
  refine ⟨String.ofList (before ++ blanks), String.ofList behind, ?_, ?_⟩
  · rw [← String.toList_inj, htext]
    simp
  · rw [hoffset, Nat.zero_add, ← byteLength_append]
    rfl

/-- **A failure points at the first byte that no expression goes on with.**  All tokens are parts
of a text, each at the byte where it starts.  The offset of a failure lies between two characters or
at an end of the text.  What is before it begins some expression, and with the byte at the offset,
if there is one, it begins none. -/
theorem parse_offsets (input : String) :
    (∀ spot ∈ scan 0 input.toList, ∃ before after : String,
        input = before ++ String.ofList spot.token.chars ++ after
          ∧ spot.offset = before.utf8ByteSize)
      ∧ ∀ error, parse input = .error error →
        error.offset ≤ input.utf8ByteSize
          ∧ (⟨error.offset⟩ : String.Pos.Raw).IsValid input
          ∧ (∃ other, Extends other input error.offset ∧ ∃ nodes, parse other = .ok nodes)
          ∧ (error.offset < input.utf8ByteSize →
            ∀ other, Extends other input (error.offset + 1) →
              ∀ nodes, parse other ≠ .ok nodes) := by
  refine ⟨fun spot hspot => spot_parts hspot, fun error herror => ?_⟩
  obtain ⟨before, after, s, htext, hoffset, hreaches, hstuck⟩ := parse_error_reaches herror
  have hinput : input = String.ofList before ++ String.ofList after := by
    rw [← String.toList_inj, htext]
    simp
  have hsize : input.utf8ByteSize = byteLength before + byteLength after := by
    rw [← byteLength_toList, htext, byteLength_append]
  rw [hoffset]
  refine ⟨by omega, ?_, ?_, ?_⟩
  · exact String.Pos.Raw.isValid_iff_exists_append.mpr ⟨_, _, hinput, rfl⟩
  · refine ⟨String.ofList (before ++ s.completionChars), ?_, hreaches.accepted⟩
    rw [hinput, ← String.ofList_append]
    exact extends_append before after s.completionChars
  · intro hlt other hother nodes
    cases after with
    | nil => exact absurd hlt (by rw [hsize, byteLength_nil]; omega)
    | cons c after =>
        obtain ⟨d, behind, htoList, hfirst⟩ := hother.toList_eq htext
        exact hreaches.refused (hstuck c rfl) (alike_of_firstByte hfirst) htoList nodes

/-- The two accents begin with the same byte, and neither of them stands behind a modifier. -/
theorem parse_offsets_accent :
    parse "[posts(s0 é" = .error ⟨10, .expectedMark ')'⟩
      ∧ ⟨.name ['p', 'o', 's', 't', 's'], 1⟩ ∈ scan 0 "[posts(s0 é".toList
      ∧ (∃ before after : String,
          "[posts(s0 é" = before ++ String.ofList ['p', 'o', 's', 't', 's'] ++ after
            ∧ 1 = before.utf8ByteSize)
      ∧ 10 < "[posts(s0 é".utf8ByteSize
      ∧ (⟨10⟩ : String.Pos.Raw).IsValid "[posts(s0 é"
      ∧ (∃ other, Extends other "[posts(s0 é" 10 ∧ ∃ nodes, parse other = .ok nodes)
      ∧ Extends "[posts(s0 è)]" "[posts(s0 é" 11
      ∧ ∀ nodes, parse "[posts(s0 è)]" ≠ .ok nodes := by
  have hscan : scan 0 "[posts(s0 é".toList = [⟨.openList, 0⟩,
      ⟨.name ['p', 'o', 's', 't', 's'], 1⟩, ⟨.openModifiers, 6⟩, ⟨.name ['s', '0'], 7⟩,
      ⟨.stray 'é', 10⟩] := by decide +kernel
  have herror : parse "[posts(s0 é" = .error ⟨10, .expectedMark ')'⟩ := by
    unfold parse
    rw [hscan]
    rfl
  have hspot : ⟨.name ['p', 'o', 's', 't', 's'], 1⟩ ∈ scan 0 "[posts(s0 é".toList := by
    rw [hscan]
    exact .tail _ (.head _)
  have hsize : 10 < "[posts(s0 é".utf8ByteSize := by decide +kernel
  have hextends : Extends "[posts(s0 è)]" "[posts(s0 é" 11 := by decide +kernel
  obtain ⟨hspots, herrors⟩ := parse_offsets "[posts(s0 é"
  have hparts := hspots _ hspot
  dsimp only [Token.chars] at hparts
  obtain ⟨-, hvalid, hviable, hrefused⟩ := herrors _ herror
  exact ⟨herror, hspot, hparts, hsize, hvalid, hviable, hextends, hrefused hsize _ hextends⟩

end Expression

end GraphFetch

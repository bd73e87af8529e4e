/-
What a document that was read is made of.

Whatever a reader yields is put together from what its parts yield.  A field's name and
its response name come from the reader of names alone, so both are made of letters, digits
and underscores; and the values of its arguments are such as have a notation, which bytes
do not have, nor an enum without a name.  So it is at every level of every operation and
fragment, and what holds of all fields there holds of all fields when fragments are put in
place.
-/
import GraphFetch.Document.Parser
import GraphFetch.Document.Selected
import GraphFetch.Proofs.Json.Named
import Mathlib.Data.List.TakeDrop

namespace GraphFetch

/-! ### Values that can be written -/

/-- Whether a literal itself has a notation, whatever is in it. -/
def Literal.Written : Literal → Prop
  | .binary _ => False
  | .enum name => name ≠ ""
  | _ => True

/-- Whether a constant itself has a notation, whatever is in it. -/
def Const.Written : Const → Prop
  | .binary _ => False
  | .enum name => name ≠ ""
  | _ => True

theorem Literal.Written.toConst {literal : Literal} (h : literal.Written) {value : Const}
    (hvalue : literal.toConst? = some value) : value.Written := by
  cases literal with
  | binary bytes => exact h.elim
  | enum name =>
      rw [toConst?] at hvalue
      cases hvalue
      exact h
  | list items =>
      rw [toConst?] at hvalue
      obtain ⟨values, -, rfl⟩ := Option.map_eq_some_iff.mp hvalue
      trivial
  | object members =>
      rw [toConst?] at hvalue
      obtain ⟨values, -, rfl⟩ := Option.map_eq_some_iff.mp hvalue
      trivial
  | var name =>
      rw [toConst?] at hvalue
      cases hvalue
  | _ =>
      rw [toConst?] at hvalue
      cases hvalue
      trivial

namespace Document

/-! ### What readers yield -/

namespace Reader

variable {α β : Type} {p : α → Prop} {q : β → Prop}

/-- Whether everything that a reader takes satisfies a predicate. -/
def Yields (p : α → Prop) (reader : Reader α) : Prop :=
  ∀ input value rest, reader input = some (value, rest) → p value

theorem Yields.any (reader : Reader α) : Yields (fun _ => True) reader := fun _ _ _ _ => trivial

theorem Yields.pure {value : α} (h : p value) : Yields p (Pure.pure value : Reader α) := by
  intro input taken rest hrun
  cases hrun
  exact h

theorem Yields.failure : Yields p (failure : Reader α) := by
  intro input taken rest hrun
  cases hrun

theorem Yields.bind {reader : Reader β} {next : β → Reader α} (hreader : Yields q reader)
    (hnext : ∀ value, q value → Yields p (next value)) : Yields p (reader >>= next) := by
  intro input taken rest hrun
  obtain ⟨⟨value, between⟩, hfirst, hthen⟩ := Option.bind_eq_some_iff.mp hrun
  exact hnext value (hreader _ _ _ hfirst) _ _ _ hthen

/-- Whatever comes first, what counts is what comes last. -/
theorem Yields.after {reader : Reader β} {next : β → Reader α}
    (hnext : ∀ value, Yields p (next value)) : Yields p (reader >>= next) :=
  (Yields.any reader).bind fun value _ => hnext value

theorem Yields.orElse {first second : Reader α} (h₁ : Yields p first) (h₂ : Yields p second) :
    Yields p (first <|> second) := by
  intro input taken rest hrun
  have hcases : (first input <|> second input) = some (taken, rest) := hrun
  cases hfirst : first input with
  | none =>
      rw [hfirst] at hcases
      exact h₂ _ _ _ hcases
  | some result =>
      rw [hfirst] at hcases
      cases hcases
      exact h₁ _ _ _ hfirst

theorem Yields.maybe {reader : Reader α} (h : Yields p reader) :
    Yields (fun taken => ∀ value, taken = some value → p value) (Text.maybe reader) := by
  intro input taken rest hrun value heq
  subst heq
  unfold Text.maybe at hrun
  cases hfirst : reader input with
  | none => simp [hfirst] at hrun
  | some result =>
      obtain ⟨first, between⟩ := result
      simp only [hfirst, Option.some.injEq, Prod.mk.injEq] at hrun
      exact hrun.1 ▸ h _ _ _ hfirst

theorem Yields.many {reader : Reader α} (h : Yields p reader) :
    Yields (fun taken => ∀ value ∈ taken, p value) (many reader) := by
  have hupTo : ∀ (bound : Nat) (input : Input), ∀ value ∈ (Text.upTo reader bound input).1,
      p value := by
    intro bound
    induction bound with
    | zero => intro input value hvalue; exact absurd hvalue (by simp [Text.upTo])
    | succ bound ih =>
        intro input value hvalue
        unfold Text.upTo at hvalue
        cases hfirst : reader input with
        | none => simp [hfirst] at hvalue
        | some result =>
            obtain ⟨first, between⟩ := result
            simp only [hfirst, List.mem_cons] at hvalue
            rcases hvalue with rfl | hvalue
            · exact h _ _ _ hfirst
            · exact ih between value hvalue
  intro input taken rest hrun
  unfold Reader.many at hrun
  rw [Option.some.injEq] at hrun
  intro value hvalue
  refine hupTo input.text.length input value ?_
  rw [hrun]
  exact hvalue

theorem Yields.many1 {reader : Reader α} (h : Yields p reader) :
    Yields (fun taken => ∀ value ∈ taken, p value) (many1 reader) := by
  refine h.bind fun first hfirst => h.many.bind fun more hmore => Yields.pure ?_
  intro value hvalue
  rcases List.mem_cons.mp hvalue with rfl | hvalue
  · exact hfirst
  · exact hmore value hvalue

end Reader

/-! ### Names -/

/-- A name: letters, digits and underscores, at least one of them. -/
def IsName (name : String) : Prop :=
  name.toList ≠ [] ∧ ∀ c ∈ name.toList, Reader.isNameChar c = true

open Reader

theorem nameHere_isName : Yields IsName nameHere := by
  intro input value rest hrun
  unfold nameHere at hrun
  split at hrun
  · rename_i c more _
    split at hrun
    · rename_i hstart
      simp only [Option.some.injEq, Prod.mk.injEq] at hrun
      rw [← hrun.1]
      refine ⟨by simp, ?_⟩
      intro d hd
      rw [String.toList_ofList, List.mem_cons] at hd
      rcases hd with rfl | hd
      · simp [isNameChar, hstart]
      · rw [List.span_eq_takeWhile_dropWhile] at hd
        exact List.all_eq_true.mp List.all_takeWhile d hd
    · exact absurd hrun (by simp)
  · exact absurd hrun (by simp)

theorem name_isName : Yields IsName name := Yields.after fun _ => nameHere_isName

/-! ### Values -/

theorem literal_written (withVariables : Bool) (bound : Nat) :
    Yields Literal.Written (literal withVariables bound) := by
  cases bound with
  | zero => exact Yields.failure
  | succ bound =>
      unfold literal
      refine Yields.orElse ?_ (Yields.orElse ?_ (Yields.orElse ?_ (Yields.orElse ?_
        (Yields.orElse ?_ (Yields.orElse ?_ (Yields.orElse ?_ (Yields.orElse ?_ ?_)))))))
      · split
        · exact Yields.after fun _ => Yields.pure trivial
        · exact Yields.failure
      · exact Yields.after fun _ => Yields.pure trivial
      · exact Yields.after fun _ => Yields.pure trivial
      · exact Yields.after fun _ => Yields.pure trivial
      · exact Yields.after fun _ => Yields.pure trivial
      · exact Yields.after fun _ => Yields.pure trivial
      · have hname : Yields IsName enumName := Yields.after fun _ => Yields.after fun _ =>
          Yields.after fun _ => Yields.after fun _ => nameHere_isName
        refine hname.bind fun name hname => Yields.pure ?_
        rintro rfl
        exact hname.1 rfl
      · exact Yields.after fun _ => Yields.after fun _ => Yields.after fun _ => Yields.pure trivial
      · exact Yields.after fun _ => Yields.after fun _ => Yields.after fun _ => Yields.pure trivial

theorem constant_written : Yields Const.Written constant := by
  refine Yields.after fun input => (literal_written false _).bind fun written hwritten => ?_
  split
  · rename_i value hvalue
    exact Yields.pure (hwritten.toConst hvalue)
  · exact Yields.failure

theorem arguments_written :
    Yields (fun found => ∀ argument ∈ found, argument.2.Written) arguments := by
  have hvalue : Yields Literal.Written value := Yields.after fun input => literal_written true _
  have hnamed : Yields (fun argument => argument.2.Written) (named value) :=
    Yields.after fun name => Yields.after fun _ => hvalue.bind fun found hfound =>
      Yields.pure hfound
  exact Yields.after fun _ => hnamed.many1.bind fun found hfound =>
    Yields.after fun _ => Yields.pure hfound

/-! ### Fields -/

/-- What is asked of a field: of its names and its arguments. -/
abbrev FieldProperty := String → Option String → List (String × Literal) → Prop

mutual

/-- Whether the fields of a selection have a property, at every level. -/
def Holds (p : FieldProperty) : Selection → Prop
  | .field name asName arguments _ children => p name asName arguments ∧ AllHold p children
  | .spread _ _ => True
  | .group _ _ children => AllHold p children

def AllHold (p : FieldProperty) : List Selection → Prop
  | [] => True
  | selection :: rest => Holds p selection ∧ AllHold p rest

end

theorem allHold_iff {p : FieldProperty} {selections : List Selection} :
    AllHold p selections ↔ ∀ selection ∈ selections, Holds p selection := by
  induction selections with
  | nil => simp [AllHold]
  | cons first rest ih => simp [AllHold, ih]

mutual

/-- Fields with a property have every weaker one. -/
theorem Holds.mono {p q : FieldProperty}
    (hweaker : ∀ name asName arguments, p name asName arguments → q name asName arguments)
    (selection : Selection) (h : Holds p selection) : Holds q selection := by
  match selection with
  | .field name asName arguments directives children =>
      rw [Holds] at h ⊢
      exact ⟨hweaker _ _ _ h.1, AllHold.mono hweaker children h.2⟩
  | .spread _ _ => trivial
  | .group _ _ children =>
      rw [Holds] at h ⊢
      exact AllHold.mono hweaker children h

theorem AllHold.mono {p q : FieldProperty}
    (hweaker : ∀ name asName arguments, p name asName arguments → q name asName arguments)
    (selections : List Selection) (h : AllHold p selections) : AllHold q selections := by
  match selections with
  | [] => trivial
  | selection :: rest =>
      rw [AllHold] at h ⊢
      exact ⟨Holds.mono hweaker selection h.1, AllHold.mono hweaker rest h.2⟩

end

/-- A field with names for names and values that can be written. -/
def IsField (name : String) (asName : Option String) (arguments : List (String × Literal)) : Prop :=
  IsName name ∧ (∀ other, asName = some other → IsName other)
    ∧ ∀ argument ∈ arguments, argument.2.Written

theorem nested_fields {selection : Nat → Reader Selection}
    (h : ∀ remaining, Yields (Holds IsField) (selection remaining)) (remaining : Nat) :
    Yields (AllHold IsField) (nested selection remaining) := by
  have hread : Yields (AllHold IsField) (do
      let selections ← many1 (selection (remaining - 1))
      mark "\x7d"
      return selections) :=
    (h _).many1.bind fun found hfound =>
      Yields.after fun _ => Yields.pure (allHold_iff.mpr hfound)
  unfold nested
  refine Yields.after fun _ => ?_
  dsimp only
  split
  · exact Yields.after fun _ => hread
  · exact hread

theorem selection_fields (bound remaining : Nat) :
    Yields (Holds IsField) (selection bound remaining) := by
  induction bound generalizing remaining with
  | zero => exact Yields.failure
  | succ bound ih =>
      unfold selection
      refine Yields.orElse ?_ (Yields.orElse ?_ ?_)
      · refine (Yields.maybe (p := IsName) ?_).bind fun asName hasName => ?_
        · exact name_isName.bind fun asName hasName => Yields.after fun _ => Yields.pure hasName
        refine name_isName.bind fun name hname => ?_
        refine arguments_written.maybe.bind fun found hfound => Yields.after fun directives => ?_
        refine (nested_fields ih remaining).maybe.bind fun children hchildren => Yields.pure ?_
        rw [Holds]
        refine ⟨⟨hname, hasName, ?_⟩, ?_⟩
        · cases found with
          | none => exact nofun
          | some arguments => exact hfound arguments rfl
        · cases children with
          | none => trivial
          | some below => exact hchildren below rfl
      · refine Yields.after fun _ => Yields.after fun _ => ?_
        refine Yields.after fun _ => Yields.after fun _ => ?_
        refine (nested_fields ih remaining).bind fun children hchildren => Yields.pure ?_
        rw [Holds]
        exact hchildren
      · refine Yields.after fun _ => Yields.after fun _ => Yields.after fun _ => ?_
        exact Yields.after fun _ => Yields.after fun _ => Yields.pure trivial

theorem selectionSet_fields : Yields (AllHold IsField) selectionSet := by
  refine Yields.after fun input => Yields.after fun _ => ?_
  refine (selection_fields _ _).many1.bind fun found hfound => ?_
  exact Yields.after fun _ => Yields.pure (allHold_iff.mpr hfound)

/-! ### Documents -/

/-- What an operation that was read is made of. -/
structure IsOperation (operation : Operation) : Prop where
  declared : ∀ definition ∈ operation.declared, ∀ value, definition.default = some value →
    value.Written
  fields : AllHold IsField operation.selections

/-- What a document that was read is made of. -/
structure IsRead (document : Document) : Prop where
  operations : ∀ operation ∈ document.operations, IsOperation operation
  fragments : ∀ fragment ∈ document.fragments, AllHold IsField fragment.2

/-- What a definition that was read is made of. -/
def Definition.IsRead : Definition → Prop
  | .operation op => IsOperation op
  | .fragment _ selections => AllHold IsField selections

theorem variableDefinitions_written :
    Yields (fun found => ∀ definition ∈ found, ∀ value, definition.default = some value →
      value.Written) variableDefinitions := by
  have hdefinition : Yields (fun definition : VariableDefinition =>
      ∀ value, definition.default = some value → value.Written) variableDefinition := by
    refine Yields.after fun name => Yields.after fun _ => Yields.after fun _ => ?_
    refine Yields.after fun input => Yields.after fun _ => Yields.after fun _ => ?_
    have hdefault : Yields Const.Written (do
        mark "="
        constant) := Yields.after fun _ => constant_written
    exact hdefault.maybe.bind fun found hfound => Yields.pure hfound
  exact Yields.after fun _ => hdefinition.many.bind fun found hfound =>
    Yields.after fun _ => Yields.pure hfound

theorem operation_read : Yields IsOperation operation := by
  refine Yields.orElse ?_ ?_
  · refine Yields.after fun _ => Yields.after fun _ => ?_
    refine variableDefinitions_written.maybe.bind fun found hfound => Yields.after fun _ => ?_
    refine selectionSet_fields.bind fun selections hselections => Yields.pure ⟨?_, hselections⟩
    cases found with
    | none => exact nofun
    | some declared => exact hfound declared rfl
  · exact selectionSet_fields.bind fun selections hselections => Yields.pure ⟨nofun, hselections⟩

theorem definition_read : Yields Definition.IsRead definition := by
  have hfragment : Yields (fun named : String × List Selection => AllHold IsField named.2)
      fragment := by
    refine Yields.after fun _ => Yields.after fun _ => ?_
    refine Yields.after fun _ => Yields.after fun _ => ?_
    exact Yields.after fun _ => selectionSet_fields.bind fun found hfound => Yields.pure hfound
  refine Yields.orElse ?_ ?_
  · exact operation_read.bind fun found hfound => Yields.pure hfound
  · exact hfragment.bind fun found hfound => Yields.pure hfound

theorem add_read {document next : Document} {definition : Definition}
    (hdocument : IsRead document) (hdefinition : definition.IsRead)
    (h : add document definition = .ok next) : IsRead next := by
  cases definition with
  | operation operation =>
      have hboth : ∀ operations, operations = document.operations ++ [operation] →
          IsRead { document with operations } := by
        rintro _ rfl
        refine ⟨fun other hother => ?_, hdocument.fragments⟩
        rcases List.mem_append.mp hother with hother | hother
        · exact hdocument.operations other hother
        · rw [List.mem_singleton.mp hother]
          exact hdefinition
      unfold add addOperation at h
      cases hname : operation.name with
      | none =>
          simp only [hname] at h
          split at h
          · rename_i hempty
            cases h
            exact hboth _ (by rw [List.isEmpty_iff.mp hempty, List.nil_append])
          · exact absurd h (by simp)
      | some name =>
          simp only [hname] at h
          split at h
          · exact absurd h (by simp)
          · split at h
            · exact absurd h (by simp)
            · cases h
              exact hboth _ rfl
  | fragment name selections =>
      cases hfind : Named.find? name document.fragments with
      | some _ => simp [add, hfind] at h
      | none =>
          simp only [add, hfind, Except.ok.injEq] at h
          subst h
          refine ⟨hdocument.operations, fun other hother => ?_⟩
          rcases List.mem_append.mp hother with hother | hother
          · exact hdocument.fragments other hother
          · rw [List.mem_singleton.mp hother]
            exact hdefinition

theorem foldlM_add_read {definitions : List Definition} :
    ∀ {document last : Document}, IsRead document →
      (∀ definition ∈ definitions, definition.IsRead) →
      definitions.foldlM add document = .ok last → IsRead last := by
  induction definitions with
  | nil =>
      intro document last hdocument _ h
      cases h
      exact hdocument
  | cons definition rest ih =>
      intro document last hdocument hall h
      rw [List.foldlM_cons] at h
      cases hadd : add document definition with
      | error fault => simp [hadd, bind, Except.bind] at h
      | ok next =>
          rw [hadd] at h
          exact ih (add_read hdocument (hall _ List.mem_cons_self) hadd)
            (fun d hd => hall d (List.mem_cons_of_mem _ hd)) h

/-- **A document that was read has names for names, and values that can be written.** -/
theorem parse_read {text : String} {document : Document} (h : parse text = .ok document) :
    IsRead document := by
  have hdefinitions : Yields (fun found => ∀ definition ∈ found, definition.IsRead)
      definitions :=
    definition_read.many1.bind fun found hfound =>
      Yields.after fun _ => Yields.after fun _ => Yields.pure hfound
  unfold parse at h
  split at h
  · exact absurd h (by simp)
  · rename_i found input hread
    split at h
    · exact absurd h (by simp)
    · unfold ofDefinitions at h
      cases hfold : found.foldlM add ⟨[], []⟩ with
      | error fault => simp [hfold, bind, Except.bind] at h
      | ok last =>
          rw [hfold] at h
          have hlast : IsRead last := foldlM_add_read ⟨by simp, by simp⟩
            (hdefinitions _ _ _ hread) hfold
          simp only [bind, Except.bind] at h
          split at h
          · exact absurd h (by simp)
          · cases h
            exact hlast

end Document

/-! ### Selected fields -/

open Document (FieldProperty Holds AllHold)

/-- Whether selected fields have a property, at every level. -/
def Selected.Holds (p : FieldProperty) : Selected → Prop
  | .none => True
  | .field name asName arguments children rest =>
    p name asName arguments ∧ (children ()).Holds p ∧ rest.Holds p
  | .missing _ rest => rest.Holds p

variable {p : FieldProperty}

theorem Selected.Holds.append {first second : Selected} (h₁ : first.Holds p)
    (h₂ : second.Holds p) : (first.append second).Holds p := by
  induction first with
  | none => exact h₂
  | field name asName arguments children rest _ ih =>
      obtain ⟨hfield, hchildren, hrest⟩ := h₁
      exact ⟨hfield, hchildren, ih hrest⟩
  | missing fragment rest ih => exact ih h₁

namespace Fragments

mutual

theorem spliceOne_holds {spread : String → Selected} (hspread : ∀ name, (spread name).Holds p)
    {after : Selected} (hafter : after.Holds p) (selection : Selection)
    (h : Holds p selection) : (spliceOne spread after selection).Holds p := by
  match selection with
  | .field name asName arguments directives children =>
      rw [Document.Holds] at h
      rw [spliceOne]
      exact ⟨h.1, splice_holds hspread children h.2, hafter⟩
  | .spread fragment _ =>
      rw [spliceOne]
      exact (hspread fragment).append hafter
  | .group _ _ children =>
      rw [Document.Holds] at h
      rw [spliceOne]
      exact (splice_holds hspread children h).append hafter

theorem splice_holds {spread : String → Selected} (hspread : ∀ name, (spread name).Holds p)
    (selections : List Selection) (h : AllHold p selections) :
    (splice spread selections).Holds p := by
  match selections with
  | [] => trivial
  | selection :: rest =>
      rw [AllHold] at h
      rw [splice]
      exact spliceOne_holds hspread (splice_holds hspread rest h.2) selection h.1

end

/-- What holds of all fields holds of them when fragments are put in place. -/
theorem expand_holds {fragments : Fragments}
    (hfragments : ∀ fragment ∈ fragments, AllHold p fragment.2) {selections : List Selection}
    (h : AllHold p selections) : (expand fragments selections).Holds p := by
  have hwithin : ∀ (depth : Nat) {selections : List Selection}, AllHold p selections →
      (expandWithin fragments depth selections).Holds p := by
    intro depth
    induction depth with
    | zero =>
        intro selections h
        have hspread : ∀ name, (Selected.missing name .none).Holds p := fun _ => trivial
        exact splice_holds hspread selections h
    | succ depth ih =>
        intro selections h
        refine splice_holds (fun name => ?_) selections h
        cases hfind : Named.find? name fragments with
        | none => trivial
        | some body => exact ih (hfragments _ (Named.mem_of_find? hfind))
  exact hwithin _ h

end Fragments

end GraphFetch

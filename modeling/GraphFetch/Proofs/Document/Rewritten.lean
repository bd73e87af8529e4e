/-
Documents with other arguments.

A document may be rewritten by a change to the arguments of its fields, at every level of
every operation and fragment, with everything else as it was.  Then its fields are rewritten
when fragments are put in place, a fragment that one lacks the other lacks too, and both are
accepted for the same operation or refused for the same reason.
-/
import GraphFetch.Proofs.Document.Variables
import GraphFetch.Proofs.Engine.Requests

namespace GraphFetch

open Document (IsName FieldProperty AllHold)

/-- Which arguments may stand for those of a field. -/
abbrev ArgumentChange := List (String × Literal) → List (String × Literal) → Prop

variable {change stronger : ArgumentChange}

/-! ### Selections -/

/-- Whether selections are others but for a change to the arguments of fields. -/
inductive Selection.Rewrites (change : ArgumentChange) : List Selection → List Selection → Prop
  | nil : Rewrites change [] []
  | field {name : String} {asName : Option String} {arguments others : List (String × Literal)}
      {directives : List Directive} {children below rest more : List Selection}
      (harguments : change arguments others) (hchildren : Rewrites change children below)
      (hrest : Rewrites change rest more) :
      Rewrites change (.field name asName arguments directives children :: rest)
        (.field name asName others directives below :: more)
  | spread {fragment : String} {directives : List Directive} {rest more : List Selection}
      (hrest : Rewrites change rest more) :
      Rewrites change (.spread fragment directives :: rest) (.spread fragment directives :: more)
  | group {condition : Option String} {directives : List Directive}
      {children below rest more : List Selection} (hchildren : Rewrites change children below)
      (hrest : Rewrites change rest more) :
      Rewrites change (.group condition directives children :: rest)
        (.group condition directives below :: more)

/-- Whether selected fields are others but for a change to their arguments. -/
inductive Selected.Rewrites (change : ArgumentChange) : Selected → Selected → Prop
  | none : Rewrites change .none .none
  | missing {fragment : String} {rest more : Selected} (hrest : Rewrites change rest more) :
      Rewrites change (.missing fragment rest) (.missing fragment more)
  | field {name : String} {asName : Option String} {arguments others : List (String × Literal)}
      {children below : Unit → Selected} {rest more : Selected}
      (harguments : change arguments others)
      (hchildren : Rewrites change (children ()) (below ())) (hrest : Rewrites change rest more) :
      Rewrites change (.field name asName arguments children rest)
        (.field name asName others below more)

namespace Selected.Rewrites

variable {selected other : Selected}

theorem append {first second first' second' : Selected} (h₁ : first.Rewrites change first')
    (h₂ : second.Rewrites change second') :
    (first.append second).Rewrites change (first'.append second') := by
  induction h₁ with
  | none => exact h₂
  | missing _ ih => exact .missing ih
  | field harguments hchildren _ _ ih => exact .field harguments hchildren ih

/-- What holds of the fields that are rewritten may be asked of the change. -/
theorem strengthen {p : FieldProperty}
    (hstronger : ∀ {name asName arguments others}, p name asName arguments →
      change arguments others → stronger arguments others)
    (h : selected.Rewrites change other) (hholds : selected.Holds p) :
    selected.Rewrites stronger other := by
  induction h with
  | none => exact .none
  | missing _ ih => exact .missing (ih hholds)
  | field harguments _ _ ihBelow ih =>
      obtain ⟨hfield, hbelow, hrest⟩ := hholds
      exact .field (hstronger hfield harguments) (ihBelow hbelow) (ih hrest)

theorem wellNamed (h : selected.Rewrites change other) (hnamed : selected.WellNamed) :
    other.WellNamed := by
  induction h with
  | none => trivial
  | missing _ ih => exact ih hnamed
  | field _ _ _ ihBelow ih =>
      obtain ⟨hname, hasName, hbelow, hrest⟩ := hnamed
      exact ⟨hname, hasName, ihBelow hbelow, ih hrest⟩

end Selected.Rewrites

namespace Fragments

theorem splice_rewrites {spread spread' : String → Selected}
    (hspread : ∀ name, (spread name).Rewrites change (spread' name))
    {selections others : List Selection} (h : Selection.Rewrites change selections others) :
    (splice spread selections).Rewrites change (splice spread' others) := by
  induction h with
  | nil => exact .none
  | field harguments _ _ ihBelow ih => exact .field harguments ihBelow ih
  | spread _ ih => exact (hspread _).append ih
  | group _ _ ihBelow ih => exact ihBelow.append ih

/-- **What is rewritten is rewritten still when fragments are put in place.** -/
theorem expand_rewrites {fragments fragments' : Fragments}
    (hfragments : Named.Related (Selection.Rewrites change) fragments fragments')
    {selections others : List Selection} (h : Selection.Rewrites change selections others) :
    (expand fragments selections).Rewrites change (expand fragments' others) := by
  have hwithin : ∀ (depth : Nat) {selections others : List Selection},
      Selection.Rewrites change selections others →
      (expandWithin fragments depth selections).Rewrites change
        (expandWithin fragments' depth others) := by
    intro depth
    induction depth with
    | zero => exact splice_rewrites fun name => .missing .none
    | succ depth ih =>
        refine splice_rewrites fun name => ?_
        rcases hfragments.find? name with ⟨hnone, hnone'⟩ | ⟨_, _, hfind, hfind', hbody⟩
        · rw [hnone, hnone']
          exact .missing .none
        · rw [hfind, hfind']
          exact ih hbody
  unfold expand
  rw [← hfragments.length_eq]
  exact hwithin _ h

end Fragments

/-! ### Documents -/

structure Operation.Rewrites (change : ArgumentChange) (operation other : Operation) : Prop where
  kind : operation.kind = other.kind
  name : operation.name = other.name
  selections : Selection.Rewrites change operation.selections other.selections

/-- Whether a document is another but for a change to the arguments of fields and for the variables
that operations declare. -/
structure Document.Rewrites (change : ArgumentChange) (document other : Document) : Prop where
  operations : List.Forall₂ (Operation.Rewrites change) document.operations other.operations
  fragments : Named.Related (Selection.Rewrites change) document.fragments other.fragments

/-- What an operation of a document runs under: the values of a request for its variables, and the
defaults that it declares. -/
def Document.bound (document : Document) (operationName : Option String) (bindings : Variables) :
    Variables :=
  match document.selectOperation operationName with
  | .ok operation => operation.withDefaults bindings
  | .error _ => bindings

structure RootSelection.Rewrites (change : ArgumentChange) (selection other : RootSelection) :
    Prop where
  name : selection.name = other.name
  asName : selection.asName = other.asName
  arguments : change selection.arguments other.arguments
  children : (selection.children ()).Rewrites change (other.children ())

theorem RootSelection.Rewrites.key {selection other : RootSelection}
    (h : selection.Rewrites change other) : selection.key = other.key := by
  unfold RootSelection.key WrittenField.key
  rw [h.name, h.asName]

/-- Whether a field as it is written is another but for a change to the arguments of fields. -/
structure WrittenField.Rewrites (change : ArgumentChange) (field other : WrittenField) : Prop where
  name : field.name = other.name
  asName : field.asName = other.asName
  arguments : change field.arguments other.arguments
  directives : field.directives = other.directives
  selections : Selection.Rewrites change field.selections other.selections

namespace Fragments

theorem rootsOf_rewrites {spread spread' : String → Except PlanError (List WrittenField)}
    (hspread : ∀ name, Outcome.Both (List.Forall₂ (WrittenField.Rewrites change)) (spread name)
      (spread' name))
    {selections others : List Selection} (h : Selection.Rewrites change selections others) :
    Outcome.Both (List.Forall₂ (WrittenField.Rewrites change)) (rootsOf spread selections)
      (rootsOf spread' others) := by
  induction h with
  | nil => exact .ok .nil
  | @field name asName arguments others directives children below _ _ harguments hchildren _ _ ih =>
      have hfield : WrittenField.Rewrites change ⟨name, asName, arguments, directives, children⟩
          ⟨name, asName, others, directives, below⟩ := ⟨rfl, rfl, harguments, rfl, hchildren⟩
      exact Outcome.Both.bind (.ok (List.Forall₂.cons hfield .nil)) fun _ _ _ _ hfirst =>
        ih.bind fun _ _ _ _ hothers => .pure (List.rel_append hfirst hothers)
  | spread _ ih =>
      exact (hspread _).bind fun _ _ _ _ hfirst => ih.bind fun _ _ _ _ hothers =>
        .pure (List.rel_append hfirst hothers)
  | group _ _ ihBelow ih =>
      exact ihBelow.bind fun _ _ _ _ hfirst => ih.bind fun _ _ _ _ hothers =>
        .pure (List.rel_append hfirst hothers)

/-- The root fields of what is rewritten are rewritten, or lack the same fragment. -/
theorem rootFields_rewrites {fragments fragments' : Fragments}
    (hfragments : Named.Related (Selection.Rewrites change) fragments fragments')
    {selections others : List Selection} (h : Selection.Rewrites change selections others) :
    Outcome.Both (List.Forall₂ (WrittenField.Rewrites change)) (fragments.rootFields selections)
      (fragments'.rootFields others) := by
  have hwithin : ∀ (depth : Nat) {selections others : List Selection},
      Selection.Rewrites change selections others →
      Outcome.Both (List.Forall₂ (WrittenField.Rewrites change))
        (rootsWithin fragments depth selections) (rootsWithin fragments' depth others) := by
    intro depth
    induction depth with
    | zero => exact rootsOf_rewrites fun name => .error _
    | succ depth ih =>
        refine rootsOf_rewrites fun name => ?_
        rcases hfragments.find? name with ⟨hnone, hnone'⟩ | ⟨_, _, hfind, hfind', hbody⟩
        · rw [hnone, hnone']
          exact .error _
        · rw [hfind, hfind']
          exact ih hbody
  unfold rootFields
  rw [← hfragments.length_eq]
  exact hwithin _ h

end Fragments

end GraphFetch

/-
Root fields as they are written.

The root fields of an operation are found by going into every group and every fragment
where it stands, as far as a number of spreads may be followed.  Found are the fields that
the selections of the operation gather.  Where fragments run in no circle it is enough to
follow as many spreads as there are fragments: then what is gathered is found.
-/
import GraphFetch.Engine.Request
import GraphFetch.Proofs.Document.Expansion
import GraphFetch.Proofs.Document.Fields
import GraphFetch.Proofs.Outcome

namespace GraphFetch

namespace Fragments

variable {fragments : Fragments}

/-! ### What is found is gathered -/

theorem rootsOf_gathers {spread : String → Except PlanError (List WrittenField)}
    (hspread : ∀ name found, spread name = .ok found →
      ∃ body, Named.find? name fragments = some body ∧ Gathers fragments body found) :
    ∀ (selections : List Selection) {found : List WrittenField},
      rootsOf spread selections = .ok found → Gathers fragments selections found
  | [], found, h => by
    cases h
    exact .nil
  | .field name asName arguments directives children :: rest, found, h => by
    rw [rootsOf, rootsOfOne] at h
    obtain ⟨first, hfirst, h⟩ := Outcome.bind_ok.mp h
    obtain ⟨others, hothers, h⟩ := Outcome.bind_ok.mp h
    cases hfirst
    obtain rfl := Outcome.pure_ok.mp h
    exact .field (rootsOf_gathers hspread rest hothers)
  | .spread fragment directives :: rest, found, h => by
    rw [rootsOf, rootsOfOne] at h
    obtain ⟨first, hfirst, h⟩ := Outcome.bind_ok.mp h
    obtain ⟨others, hothers, h⟩ := Outcome.bind_ok.mp h
    obtain rfl := Outcome.pure_ok.mp h
    obtain ⟨body, hbody, hgathers⟩ := hspread fragment first hfirst
    exact .spread hbody hgathers (rootsOf_gathers hspread rest hothers)
  | .group condition directives children :: rest, found, h => by
    rw [rootsOf, rootsOfOne] at h
    obtain ⟨first, hfirst, h⟩ := Outcome.bind_ok.mp h
    obtain ⟨others, hothers, h⟩ := Outcome.bind_ok.mp h
    obtain rfl := Outcome.pure_ok.mp h
    exact .group (rootsOf_gathers hspread children hfirst) (rootsOf_gathers hspread rest hothers)

theorem rootsWithin_gathers (depth : Nat) {selections : List Selection}
    {found : List WrittenField} (h : rootsWithin fragments depth selections = .ok found) :
    Gathers fragments selections found := by
  induction depth generalizing selections found with
  | zero => exact rootsOf_gathers (fun _ _ hfound => absurd hfound (by simp)) selections h
  | succ depth ih =>
      refine rootsOf_gathers (fun name found hfound => ?_) selections h
      cases hbody : Named.find? name fragments with
      | none =>
          rw [hbody] at hfound
          cases hfound
      | some body =>
          rw [hbody] at hfound
          exact ⟨body, rfl, ih hfound⟩

/-- **The root fields that are found are gathered**, in the order of the document. -/
theorem rootFields_gathers {selections : List Selection} {found : List WrittenField}
    (h : fragments.rootFields selections = .ok found) : Gathers fragments selections found :=
  rootsWithin_gathers _ h

/-! ### What is gathered is found -/

/-- The root fields of a fragment where at most `depth` spreads are followed. -/
def spreadRoots (fragments : Fragments) :
    Nat → String → Except PlanError (List WrittenField)
  | 0, name => .error (.unknownFragment name)
  | depth + 1, name =>
    match Named.find? name fragments with
    | some body => rootsWithin fragments depth body
    | none => .error (.unknownFragment name)

theorem rootsWithin_eq (depth : Nat) (selections : List Selection) :
    rootsWithin fragments depth selections = rootsOf (spreadRoots fragments depth) selections := by
  cases depth <;> rfl

theorem Gathers.rootsWithin {selections : List Selection} {fields : List WrittenField}
    (h : Gathers fragments selections fields) {depth : Nat} {visited : List String}
    (honward : Onward fragments depth visited selections) :
    fragments.rootsWithin depth selections = .ok fields := by
  induction h generalizing depth visited with
  | nil => rw [rootsWithin_eq, rootsOf]
  | field _ ih =>
      have hlater := ih (honward.mono (spreads_rest_subset _ _))
      rw [rootsWithin_eq] at hlater ⊢
      rw [rootsOf, rootsOfOne, hlater]
      rfl
  | group _ _ ihChildren ihRest =>
      have hinside := ihChildren (honward.mono (spreads_group_subset _ _ _ _))
      have hlater := ihRest (honward.mono (spreads_rest_subset _ _))
      rw [rootsWithin_eq] at hinside hlater ⊢
      rw [rootsOf, rootsOfOne, hinside, hlater]
      rfl
  | spread hbody _ _ ihInner ihRest =>
      obtain ⟨less, rfl, hless⟩ := honward.step (mem_spreads_spread _ _ _) hbody
      have hinside := ihInner hless
      have hlater := ihRest (honward.mono (spreads_rest_subset _ _))
      rw [rootsWithin_eq] at hlater ⊢
      rw [rootsOf, rootsOfOne, hlater, spreadRoots, hbody]
      dsimp only
      rw [hinside]
      rfl

/-- **Where fragments run in no circle, the root fields that selections gather are found.** -/
theorem Gathers.rootFields {selections : List Selection} {fields : List WrittenField}
    (h : Gathers fragments selections fields) (hacyclic : fragments.Acyclic selections) :
    fragments.rootFields selections = .ok fields :=
  h.rootsWithin (hacyclic.onward (Nat.le_refl _))

/-! ### What holds of all fields -/

open Document (FieldProperty Holds AllHold)

variable {p : FieldProperty}

/-- What holds of the fields of selections and of fragments holds of those that stand there. -/
theorem Stands.holds {selection : Selection} {selections : List Selection}
    (h : Stands fragments selection selections)
    (hfragments : ∀ fragment ∈ fragments, AllHold p fragment.2)
    (hselections : AllHold p selections) : Holds p selection := by
  induction h with
  | here h => exact Document.allHold_iff.mp hselections _ h
  | group hgroup _ ih =>
      have hchildren := Document.allHold_iff.mp hselections _ hgroup
      rw [Document.Holds] at hchildren
      exact ih hchildren
  | spread _ hbody _ ih => exact ih (hfragments _ (Named.mem_of_find? hbody))

end Fragments

end GraphFetch

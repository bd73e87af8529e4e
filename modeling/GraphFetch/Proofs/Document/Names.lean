/-
The names in a document.

A document that was read has names for the names of its fields, at every level of every
operation and fragment, and they stay so when fragments are put in place.
-/
import GraphFetch.Proofs.Document.Fields

namespace GraphFetch

namespace Document

/-! ### Selections -/

mutual

/-- Whether all names in a selection are names. -/
def WellNamed : Selection → Prop
  | .field name asName _ _ children =>
    IsName name ∧ (∀ other, asName = some other → IsName other) ∧ AllWellNamed children
  | .spread _ _ => True
  | .group _ _ children => AllWellNamed children

def AllWellNamed : List Selection → Prop
  | [] => True
  | selection :: rest => WellNamed selection ∧ AllWellNamed rest

end

/-- A field with names for names. -/
def HasNames : FieldProperty := fun name asName _ =>
  IsName name ∧ ∀ other, asName = some other → IsName other

mutual

theorem wellNamed_iff (selection : Selection) :
    WellNamed selection ↔ Holds HasNames selection := by
  match selection with
  | .field name asName arguments _ children =>
      rw [WellNamed, Holds, HasNames, allWellNamed_iff children, and_assoc]
  | .spread _ _ => rw [WellNamed, Holds]
  | .group _ _ children => rw [WellNamed, Holds, allWellNamed_iff children]

theorem allWellNamed_iff (selections : List Selection) :
    AllWellNamed selections ↔ AllHold HasNames selections := by
  match selections with
  | [] => rw [AllWellNamed, AllHold]
  | selection :: rest =>
      rw [AllWellNamed, AllHold, wellNamed_iff selection, allWellNamed_iff rest]

end

theorem wellNamed_of_fields {selections : List Selection} (h : AllHold IsField selections) :
    AllWellNamed selections :=
  (allWellNamed_iff selections).mpr
    (AllHold.mono (fun _ _ _ hfield => ⟨hfield.1, hfield.2.1⟩) selections h)

/-! ### Documents -/

/-- Whether all names in the selections of a document are names. -/
structure AllNamed (document : Document) : Prop where
  operations : ∀ operation ∈ document.operations, AllWellNamed operation.selections
  fragments : ∀ fragment ∈ document.fragments, AllWellNamed fragment.2

/-- **All names in a document that was read are names.** -/
theorem parse_allNamed {text : String} {document : Document} (h : parse text = .ok document) :
    AllNamed document where
  operations operation hoperation :=
    wellNamed_of_fields ((parse_read h).operations operation hoperation).fields
  fragments fragment hfragment := wellNamed_of_fields ((parse_read h).fragments fragment hfragment)

end Document

/-! ### Selected fields -/

open Document (IsName AllWellNamed HasNames)

/-- Whether all names of selected fields are names. -/
def Selected.WellNamed : Selected → Prop
  | .none => True
  | .field name asName _ children rest =>
    IsName name ∧ (∀ other, asName = some other → IsName other) ∧ (children ()).WellNamed
      ∧ rest.WellNamed
  | .missing _ rest => rest.WellNamed

theorem Selected.wellNamed_iff (selected : Selected) :
    selected.WellNamed ↔ selected.Holds HasNames := by
  induction selected with
  | none => rw [WellNamed, Holds]
  | field name asName arguments children rest ihChildren ihRest =>
      rw [WellNamed, Holds, ihChildren (), ihRest, HasNames, and_assoc]
  | missing fragment rest ih => rw [WellNamed, Holds, ih]

/-- Names stay names when fragments are put in place. -/
theorem Fragments.expand_wellNamed {fragments : Fragments}
    (hfragments : ∀ fragment ∈ fragments, AllWellNamed fragment.2) {selections : List Selection}
    (h : AllWellNamed selections) : (expand fragments selections).WellNamed :=
  (Selected.wellNamed_iff _).mpr (expand_holds
    (fun fragment hfragment => (Document.allWellNamed_iff _).mp (hfragments fragment hfragment))
    ((Document.allWellNamed_iff _).mp h))

end GraphFetch

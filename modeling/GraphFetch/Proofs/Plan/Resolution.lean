/-
What the literal of an argument resolves to.

A literal is refused for the first null or object that is written in it, in the order in which its
parts begin in the text: an object comes before what it holds.  Nothing but what is written counts.
The value of a variable is taken as it is, nulls and objects in it too.

What is not refused keeps its shape.  A list becomes a list with the same number of items, and each
item is what stands in its place: a scalar stands for itself, and a variable for its value.  Without
a value a variable stands for null, as long as it is in a list; by itself it resolves to nothing.
-/
import GraphFetch.Proofs.Plan.Arguments
import Mathlib.Data.List.Forall2

namespace GraphFetch

namespace Literal

/-! ### Parts -/

mutual

/-- A literal and all that it consists of, in the order in which they begin in its text. -/
def parts : Literal → List Literal
  | list items => list items :: itemParts items
  | object members => object members :: memberParts members
  | literal => [literal]

def itemParts : List Literal → List Literal
  | [] => []
  | item :: rest => parts item ++ itemParts rest

def memberParts : List (String × Literal) → List Literal
  | [] => []
  | (_, value) :: rest => parts value ++ memberParts rest

end

/-- Whether a literal is one that arguments cannot have. -/
def isRefused : Literal → Bool
  | null => true
  | object _ => true
  | _ => false

/-- The first part of a literal that arguments cannot have. -/
def refused? (literal : Literal) : Option Literal := literal.parts.find? isRefused

/-- The first part of a list of literals that arguments cannot have. -/
def itemRefused? (items : List Literal) : Option Literal := (itemParts items).find? isRefused

theorem refused?_list (items : List Literal) : (list items).refused? = itemRefused? items := by
  rw [refused?, parts, List.find?_cons_of_neg (by simp [isRefused]), itemRefused?]

theorem itemRefused?_cons (item : Literal) (rest : List Literal) :
    itemRefused? (item :: rest) = item.refused?.or (itemRefused? rest) := by
  rw [itemRefused?, itemParts, List.find?_append, refused?, itemRefused?]

section Resolving

variable {bindings : Variables}

/-! ### What is refused -/

mutual

/-- **A literal is refused for the first null or object in it.** -/
theorem resolve_error_iff (literal : Literal) {refused : Literal} :
    literal.resolve bindings = .error refused ↔ literal.refused? = some refused := by
  cases literal with
  | list items =>
      rw [resolve, refused?_list, ← resolveItems_error_iff items]
      cases resolveItems bindings items <;> simp
  | null | object members => simp [resolve, refused?, parts, isRefused]
  | _ => simp [resolve, refused?, parts, isRefused]

theorem resolveItems_error_iff (items : List Literal) {refused : Literal} :
    resolveItems bindings items = .error refused ↔ itemRefused? items = some refused := by
  match items with
  | [] => simp [resolveItems, itemRefused?, itemParts]
  | item :: rest =>
      rw [resolveItems, itemRefused?_cons]
      cases hitem : item.resolve bindings with
      | error first =>
          have hfirst : item.refused? = some first := (resolve_error_iff item).mp hitem
          simp [hfirst]
      | ok value =>
          have hnone : item.refused? = none := by
            cases hfirst : item.refused? with
            | none => rfl
            | some first => exact nomatch hitem.symm.trans ((resolve_error_iff item).mpr hfirst)
          rw [hnone, Option.none_or, ← resolveItems_error_iff rest]
          cases resolveItems bindings rest <;> simp

end

/-! ### What is filled in -/

variable (bindings) in
/-- Which constant stands for a literal in a list. -/
inductive Fills : Literal → Const → Prop
  | bound {name : String} {value : Const} (h : Named.find? name bindings = some value) :
      Fills (.var name) value
  | unbound {name : String} (h : Named.find? name bindings = none) : Fills (.var name) .null
  | number (n : Number) : Fills (.number n) (.number n)
  | string (s : String) : Fills (.string s) (.string s)
  | boolean (b : Bool) : Fills (.boolean b) (.boolean b)
  | binary (bytes : List UInt8) : Fills (.binary bytes) (.binary bytes)
  | enum (name : String) : Fills (.enum name) (.enum name)
  | list {items : List Literal} {values : List Const} (h : List.Forall₂ Fills items values) :
      Fills (.list items) (.list values)

mutual

/-- What resolves is filled in. -/
theorem fills_of_resolve (literal : Literal) {resolved : Option Const}
    (h : literal.resolve bindings = .ok resolved) :
    Fills bindings literal (resolved.getD .null) := by
  cases literal with
  | var name =>
      rw [resolve] at h
      cases h
      cases hfind : Named.find? name bindings with
      | none => exact .unbound hfind
      | some value => exact .bound hfind
  | list items =>
      rw [resolve] at h
      cases hvalues : resolveItems bindings items with
      | error refused => exact nomatch (hvalues ▸ h)
      | ok values =>
          rw [hvalues] at h
          cases h
          exact .list (fills_of_resolveItems items hvalues)
  | null | object members =>
      rw [resolve] at h
      cases h
  | _ =>
      rw [resolve] at h
      cases h
      constructor

theorem fills_of_resolveItems (items : List Literal) {values : List Const}
    (h : resolveItems bindings items = .ok values) :
    List.Forall₂ (Fills bindings) items values := by
  match items with
  | [] =>
      cases h
      exact .nil
  | item :: rest =>
      rw [resolveItems] at h
      cases hitem : item.resolve bindings with
      | error refused => exact nomatch (hitem ▸ h)
      | ok first =>
          rw [hitem] at h
          cases hrest : resolveItems bindings rest with
          | error refused => exact nomatch (hrest ▸ h)
          | ok others =>
              rw [hrest] at h
              cases h
              exact .cons (fills_of_resolve item hitem) (fills_of_resolveItems rest hrest)

end

mutual

/-- What is filled in resolves, and to the constant that stands for it. -/
theorem resolve_of_fills (literal : Literal) {value : Const} (h : Fills bindings literal value) :
    ∃ resolved, literal.resolve bindings = .ok resolved ∧ resolved.getD .null = value := by
  cases literal with
  | var name =>
      rw [resolve]
      cases h with
      | bound hfind => exact ⟨_, rfl, by rw [hfind]; rfl⟩
      | unbound hfind => exact ⟨_, rfl, by rw [hfind]; rfl⟩
  | list items =>
      cases h with
      | list hitems =>
          rw [resolve, resolveItems_of_fills items hitems]
          exact ⟨_, rfl, rfl⟩
  | null | object members => exact nomatch h
  | _ =>
      cases h
      rw [resolve]
      exact ⟨_, rfl, rfl⟩

theorem resolveItems_of_fills (items : List Literal) {values : List Const}
    (h : List.Forall₂ (Fills bindings) items values) :
    resolveItems bindings items = .ok values := by
  match items, values, h with
  | [], [], .nil => rfl
  | item :: rest, _ :: _, .cons hitem hrest =>
      obtain ⟨first, hfirst, rfl⟩ := resolve_of_fills item hitem
      rw [resolveItems, hfirst, resolveItems_of_fills rest hrest]

end

variable (bindings) in
/-- Whether a literal is a variable without a value. -/
def Unbound (literal : Literal) : Prop :=
  ∃ name, literal = .var name ∧ Named.find? name bindings = none

/-- **A literal resolves to nothing if it is a variable without a value.** -/
theorem resolve_none_iff (literal : Literal) :
    literal.resolve bindings = .ok none ↔ literal.Unbound bindings := by
  cases literal with
  | var name => simp [resolve, Unbound]
  | list items =>
      rw [resolve]
      cases resolveItems bindings items <;> simp [Unbound]
  | _ => simp [resolve, Unbound]

/-- **What else a literal resolves to is what stands for it.** -/
theorem resolve_some_iff (literal : Literal) {value : Const} :
    literal.resolve bindings = .ok (some value)
      ↔ Fills bindings literal value ∧ ¬ literal.Unbound bindings := by
  rw [← resolve_none_iff]
  constructor
  · intro h
    refine ⟨fills_of_resolve literal h, ?_⟩
    rw [h]
    nofun
  · intro ⟨hfills, hbound⟩
    obtain ⟨resolved, hresolved, hvalue⟩ := resolve_of_fills literal hfills
    cases resolved with
    | none => exact absurd hresolved hbound
    | some found => exact hvalue ▸ hresolved

end Resolving

end Literal

namespace Plan

theorem argumentValue_eq (bindings : Variables) (literal : Literal) :
    argumentValue bindings literal
      = (literal.resolve bindings).mapError PlanError.unsupportedLiteral := by
  unfold argumentValue
  cases literal.resolve bindings <;> rfl

/-- **An argument fails for the first null or object that is written in it, and otherwise keeps its
shape.**  A list becomes a list of what stands for its items, one for each and in their order; a
variable is its stored value, whatever that holds, and one without a value is null in a list and
nothing by itself. -/
theorem argumentValue_resolves (bindings : Variables) (literal : Literal) :
    ((∃ error, argumentValue bindings literal = .error error) ↔ literal.Unsupported)
      ∧ (∀ error, argumentValue bindings literal = .error error
        ↔ ∃ refused, literal.refused? = some refused ∧ error = .unsupportedLiteral refused)
      ∧ (argumentValue bindings literal = .ok none ↔ literal.Unbound bindings)
      ∧ ∀ value, argumentValue bindings literal = .ok (some value)
        ↔ literal.Fills bindings value ∧ ¬ literal.Unbound bindings := by
  have hok : ∀ resolved, argumentValue bindings literal = .ok resolved
      ↔ literal.resolve bindings = .ok resolved := by
    intro resolved
    rw [argumentValue_eq, Outcome.mapError_ok]
  refine ⟨?_, ?_, ?_, ?_⟩
  · rw [← not_iff_not, ← @argumentValue_ok_iff bindings]
    cases argumentValue bindings literal <;> simp
  · intro error
    rw [argumentValue_eq, Outcome.mapError_error]
    constructor
    · intro ⟨refused, hrefused, heq⟩
      exact ⟨refused, (Literal.resolve_error_iff literal).mp hrefused, heq.symm⟩
    · intro ⟨refused, hrefused, heq⟩
      exact ⟨refused, (Literal.resolve_error_iff literal).mpr hrefused, heq.symm⟩
  · rw [hok, Literal.resolve_none_iff]
  · intro value
    rw [hok, Literal.resolve_some_iff]

end Plan

end GraphFetch

/-
Which arguments resolve.

A literal resolves unless a null or an object is written in it, be it as an item of a list.
That is a matter of what is written alone: what variables hold is not looked into, and one
without a value is no failure.  Nor do filters have a part in it, since every argument is
resolved, whether there is a filter for it or not.
-/
import GraphFetch.Plan.Arguments
import GraphFetch.Proofs.Outcome

namespace GraphFetch

namespace Literal

/-- Whether a null or an object is written in a literal. -/
inductive Unsupported : Literal → Prop
  | null : Unsupported .null
  | object (members : List (String × Literal)) : Unsupported (.object members)
  | item {items : List Literal} {item : Literal} (hitem : item ∈ items) (h : Unsupported item) :
      Unsupported (.list items)

theorem not_unsupported_list {items : List Literal} :
    ¬ Unsupported (.list items) ↔ ∀ item ∈ items, ¬ item.Unsupported := by
  constructor
  · intro h item hitem hunsupported
    exact h (.item hitem hunsupported)
  · rintro h (_ | _ | ⟨hitem, hunsupported⟩)
    exact h _ hitem hunsupported

variable {bindings : Variables}

mutual

/-- **What resolves is what no null and no object is written in.** -/
theorem resolve_ok_iff (literal : Literal) :
    (∃ value, literal.resolve bindings = .ok value) ↔ ¬ literal.Unsupported := by
  match literal with
  | .null => exact ⟨nofun, fun h => absurd .null h⟩
  | .object members => exact ⟨nofun, fun h => absurd (.object members) h⟩
  | .list items =>
      rw [not_unsupported_list, ← resolveItems_ok_iff items, resolve]
      cases resolveItems bindings items <;> simp
  | .var _ | .number _ | .string _ | .boolean _ | .binary _ | .enum _ =>
      exact ⟨fun _ => nofun, fun _ => ⟨_, rfl⟩⟩

theorem resolveItems_ok_iff (items : List Literal) :
    (∃ values, resolveItems bindings items = .ok values)
      ↔ ∀ item ∈ items, ¬ item.Unsupported := by
  match items with
  | [] => exact ⟨fun _ => by simp, fun _ => ⟨[], rfl⟩⟩
  | item :: rest =>
      rw [List.forall_mem_cons, ← resolve_ok_iff item, ← resolveItems_ok_iff rest, resolveItems]
      cases item.resolve bindings with
      | error refused => simp
      | ok value => cases resolveItems bindings rest <;> simp

end

end Literal

namespace Plan

theorem argumentValue_ok_iff {bindings : Variables} {literal : Literal} :
    (∃ value, argumentValue bindings literal = .ok value) ↔ ¬ literal.Unsupported := by
  rw [← Literal.resolve_ok_iff]
  unfold argumentValue
  cases literal.resolve bindings <;> simp

theorem allArgumentEdits_ok_iff {bindings : Variables} {entity : Entity}
    {arguments : List (String × Literal)} :
    (∃ edits, allArgumentEdits bindings entity arguments = .ok edits)
      ↔ ∀ argument ∈ arguments, ¬ argument.2.Unsupported := by
  induction arguments with
  | nil => exact ⟨fun _ => by simp, fun _ => ⟨[], rfl⟩⟩
  | cons argument rest ih =>
      obtain ⟨name, literal⟩ := argument
      rw [List.forall_mem_cons, ← ih, ← @argumentValue_ok_iff bindings]
      simp only [allArgumentEdits, Outcome.bind_ok, Outcome.pure_ok]
      constructor
      · rintro ⟨_, value, hvalue, edits, hedits, -⟩
        exact ⟨⟨value, hvalue⟩, edits, hedits⟩
      · rintro ⟨⟨value, hvalue⟩, edits, hedits⟩
        exact ⟨_, value, hvalue, edits, hedits, rfl⟩

/-- **The arguments of a field resolve unless a null or an object is written in one of them.** -/
theorem argumentModifier_ok_iff {context : PlanContext} {entity : Entity}
    {arguments : List (String × Literal)} :
    (∃ filters, argumentModifier context entity arguments = .ok filters)
      ↔ ∀ argument ∈ arguments, ¬ argument.2.Unsupported := by
  rw [← @allArgumentEdits_ok_iff context.bindings entity]
  unfold argumentModifier
  cases arguments with
  | nil => exact ⟨fun _ => ⟨[], rfl⟩, fun _ => ⟨none, rfl⟩⟩
  | cons argument rest =>
      simp only [List.isEmpty_cons, Bool.false_eq_true, if_false, Outcome.bind_ok,
        Outcome.pure_ok]
      constructor
      · rintro ⟨_, edits, hedits, -⟩
        exact ⟨edits, hedits⟩
      · rintro ⟨edits, hedits⟩
        exact ⟨_, edits, hedits, rfl⟩

end Plan

end GraphFetch

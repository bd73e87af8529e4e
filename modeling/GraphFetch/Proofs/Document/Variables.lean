/-
Variables, looked up.

A variable has the value that a request gives it and else the first default that the operation
declares for it.  What a literal resolves to depends on the variables in it alone, and so do the
literals that it is refused for.  Whether a literal was read or a value came with a request, what
it resolves to can be written.
-/
import GraphFetch.Engine.Request
import GraphFetch.Proofs.Document.Fields

namespace GraphFetch

/-! ### Values of variables -/

namespace Variables

theorem mem_insert {name : String} {value : Const} {entry : String × Const} {bindings : Variables}
    (h : entry ∈ insert name value bindings) : entry = (name, value) ∨ entry ∈ bindings := by
  induction bindings with
  | nil => exact Or.inl (List.mem_singleton.mp h)
  | cons first rest ih =>
      obtain ⟨key, old⟩ := first
      unfold insert at h
      split at h
      · rcases List.mem_cons.mp h with rfl | h
        · exact Or.inl rfl
        · exact Or.inr (List.mem_cons_of_mem _ h)
      · split at h
        · rcases List.mem_cons.mp h with rfl | h
          · exact Or.inl rfl
          · exact Or.inr h
        · rcases List.mem_cons.mp h with rfl | h
          · exact Or.inr List.mem_cons_self
          · rcases ih h with heq | h
            · exact Or.inl heq
            · exact Or.inr (List.mem_cons_of_mem _ h)

/-- Whether every variable has a value that can be written. -/
def Written (bindings : Variables) : Prop := ∀ entry ∈ bindings, entry.2.Written

theorem Written.insert {bindings : Variables} (h : bindings.Written) {value : Const}
    (hvalue : value.Written) (name : String) : (bindings.insert name value).Written := by
  intro entry hentry
  rcases mem_insert hentry with rfl | hentry
  · exact hvalue
  · exact h entry hentry

end Variables

namespace Operation

end Operation

/-! ### Values of literals -/

namespace Literal

mutual

/-- The variables that a literal mentions, at any depth. -/
def mentions : Literal → List String
  | var name => [name]
  | list items => mentionsItems items
  | object members => mentionsMembers members
  | _ => []

def mentionsItems : List Literal → List String
  | [] => []
  | item :: rest => mentions item ++ mentionsItems rest

def mentionsMembers : List (String × Literal) → List String
  | [] => []
  | (_, value) :: rest => mentions value ++ mentionsMembers rest

end

variable {bindings others : Variables}

mutual

/-- What a literal resolves to depends on the variables that it mentions. -/
theorem resolve_congr (literal : Literal)
    (h : ∀ name ∈ literal.mentions, Named.find? name others = Named.find? name bindings) :
    literal.resolve others = literal.resolve bindings := by
  cases literal with
  | var name => rw [resolve, resolve, h name (by rw [mentions]; exact List.mem_singleton_self name)]
  | list items =>
      rw [mentions] at h
      rw [resolve, resolve, resolveItems_congr items h]
  | _ => rw [resolve, resolve]

theorem resolveItems_congr (items : List Literal)
    (h : ∀ name ∈ mentionsItems items, Named.find? name others = Named.find? name bindings) :
    resolveItems others items = resolveItems bindings items := by
  match items with
  | [] => rw [resolveItems, resolveItems]
  | item :: rest =>
      rw [mentionsItems] at h
      rw [resolveItems, resolveItems,
        resolve_congr item fun name hname => h name (List.mem_append_left _ hname),
        resolveItems_congr rest fun name hname => h name (List.mem_append_right _ hname)]

end

/-- What a literal that can be written resolves to can be written. -/
theorem Written.resolve {literal : Literal} (h : literal.Written) (hbindings : bindings.Written)
    {value : Const} (hvalue : literal.resolve bindings = .ok (some value)) : value.Written := by
  cases literal with
  | var name =>
      rw [Literal.resolve, Except.ok.injEq] at hvalue
      exact hbindings _ (Named.mem_of_find? hvalue)
  | binary bytes => exact h.elim
  | enum name =>
      rw [Literal.resolve] at hvalue
      cases hvalue
      exact h
  | list items =>
      rw [Literal.resolve] at hvalue
      split at hvalue
      · cases hvalue
        trivial
      · cases hvalue
  | null =>
      rw [Literal.resolve] at hvalue
      cases hvalue
  | object members =>
      rw [Literal.resolve] at hvalue
      cases hvalue
  | _ =>
      rw [Literal.resolve] at hvalue
      cases hvalue
      trivial

end Literal

end GraphFetch

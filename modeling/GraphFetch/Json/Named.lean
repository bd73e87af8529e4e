/-
Named entries in order.

Objects, rows, registrations and tables of modifiers are all lists of named
entries.  The order of first insertion is visible in every answer: putting an
existing name keeps its place, and removing one moves the last entry into the hole.
-/

namespace GraphFetch

namespace Named

variable {α : Type}

/-- The names in order. -/
def names (entries : List (String × α)) : List String := entries.map Prod.fst

/-- The first value under a name. -/
def find? (name : String) : List (String × α) → Option α
  | [] => none
  | (key, value) :: rest => if key = name then some value else find? name rest

/-- Gives a name a value, in its place if it has one and else at the end. -/
def put (name : String) (value : α) : List (String × α) → List (String × α)
  | [] => [(name, value)]
  | (key, old) :: rest =>
    if key = name then (key, value) :: rest else (key, old) :: put name value rest

/-- Gives a name a value unless it has one. -/
def putNew (name : String) (value : α) (entries : List (String × α)) : List (String × α) :=
  match find? name entries with
  | some _ => entries
  | none => entries ++ [(name, value)]

/-- Drops the entry of a name and moves the last entry into its place. -/
def remove (name : String) : List (String × α) → List (String × α)
  | [] => []
  | (key, value) :: rest =>
    if key = name then
      match rest.getLast? with
      | some last => last :: rest.dropLast
      | none => []
    else (key, value) :: remove name rest

/-- The entries of a list, a repeated name keeping its first place and its last value. -/
def ofList (entries : List (String × α)) : List (String × α) :=
  entries.foldl (fun map (name, value) => put name value map) []

theorem find?_put_self (name : String) (value : α) (entries : List (String × α)) :
    find? name (put name value entries) = some value := by
  induction entries with
  | nil => simp [put, find?]
  | cons entry rest ih =>
    obtain ⟨key, old⟩ := entry
    by_cases h : key = name <;> simp [put, find?, h, ih]

theorem find?_put_of_ne {name other : String} (h : other ≠ name) (value : α)
    (entries : List (String × α)) :
    find? other (put name value entries) = find? other entries := by
  induction entries with
  | nil => simp [put, find?, Ne.symm h]
  | cons entry rest ih =>
    obtain ⟨key, old⟩ := entry
    by_cases hk : key = name
    · subst hk
      simp [put, find?, Ne.symm h]
    · by_cases ho : key = other
      · subst ho
        simp [put, find?, hk]
      · simp [put, find?, hk, ho, ih]

end Named

end GraphFetch

/-
What edits leave alone, and what they read.

Edits apply one after the other, so what they keep is kept by one at a time, and two queries
stay in a relation if every edit carries it on from one pair to the next.  An edit may look
at the query that it changes.  That it does not read a part is told by two queries that
differ in this part only: it has to do the same to both.

What holds of edits is composed like the edits themselves.  Arguments compose the edits of
filters, and most filters do no more than to add a condition or an ordering or to set the
window.
-/
import GraphFetch.Query.Edit

namespace GraphFetch

/-! ### Edits in order -/

namespace Query

theorem applyAll_append (query : Query) (edits more : List Edit) :
    query.applyAll (edits ++ more) = (query.applyAll edits).applyAll more := by
  induction edits generalizing query with
  | nil => rfl
  | cons edit rest ih => exact ih (query.apply edit)

mutual

/-- No edit leads to another entity or table. -/
theorem apply_source (query : Query) (edit : Edit) :
    (query.apply edit).entity = query.entity ∧ (query.apply edit).table = query.table := by
  cases edit with
  | all edits =>
      rw [apply]
      exact applyAll_source query edits
  | unlessSkipping edits =>
      rw [apply]
      split
      · exact ⟨rfl, rfl⟩
      · exact applyAll_source query edits
  | look choose =>
      rw [apply]
      exact applyAll_source query (choose query.view)
  | _ => exact ⟨rfl, rfl⟩

theorem applyAll_source (query : Query) (edits : List Edit) :
    (query.applyAll edits).entity = query.entity ∧ (query.applyAll edits).table = query.table := by
  match edits with
  | [] => exact ⟨rfl, rfl⟩
  | edit :: rest =>
      obtain ⟨hentity, htable⟩ := apply_source query edit
      obtain ⟨hentityRest, htableRest⟩ := applyAll_source (query.apply edit) rest
      exact ⟨hentityRest.trans hentity, htableRest.trans htable⟩

end

theorem apply_table (query : Query) (edit : Edit) : (query.apply edit).table = query.table :=
  (apply_source query edit).2

theorem applyAll_table (query : Query) (edits : List Edit) :
    (query.applyAll edits).table = query.table :=
  (applyAll_source query edits).2

theorem applyAll_entity (query : Query) (edits : List Edit) :
    (query.applyAll edits).entity = query.entity :=
  (applyAll_source query edits).1

end Query

/-! ### What is kept and what is carried -/

/-- Whether edits leave a part of queries as it is. -/
def Keeps {α : Type} (part : Query → α) (edits : List Edit) : Prop :=
  ∀ query : Query, part (query.applyAll edits) = part query

/-- Whether edits of one query and edits of another keep the two in a relation. -/
def Carries (related : Query → Query → Prop) (edits others : List Edit) : Prop :=
  ∀ query other, related query other → related (query.applyAll edits) (other.applyAll others)

theorem Keeps.nil {α : Type} {part : Query → α} : Keeps part [] := fun _ => rfl

theorem Keeps.single {α : Type} {part : Query → α} {edit : Edit}
    (h : ∀ query : Query, part (query.apply edit) = part query) : Keeps part [edit] := h

namespace Carries

variable {related : Query → Query → Prop} {edits others more more' : List Edit}

theorem nil : Carries related [] [] := fun _ _ h => h

theorem single {edit other : Edit}
    (h : ∀ query query', related query query' → related (query.apply edit) (query'.apply other)) :
    Carries related [edit] [other] := h

theorem append (h : Carries related edits others) (h' : Carries related more more') :
    Carries related (edits ++ more) (others ++ more') := by
  intro query other hrelated
  rw [Query.applyAll_append, Query.applyAll_append]
  exact h' _ _ (h _ _ hrelated)

theorem all (h : Carries related edits others) : Carries related [.all edits] [.all others] := by
  refine .single fun query other hrelated => ?_
  rw [Query.apply, Query.apply]
  exact h _ _ hrelated

end Carries

/-! ### Queries without their columns -/

namespace Query

/-- The query with all columns of its table. -/
def whole (query : Query) : Query := { query with columns := none }

/-- Whether queries differ in their columns at most. -/
def SameRows (query other : Query) : Prop := query.whole = other.whole

end Query

/-- Whether edits do the same to a query whatever columns it has: they do not read the projection.
-/
abbrev Blind (edits : List Edit) : Prop := Carries Query.SameRows edits edits

/-! ### Edits put together -/

/-- Whether a property of edits passes to what is put together of them. -/
structure Composes (holds : List Edit → Prop) : Prop where
  nil : holds []
  append : ∀ {edits more}, holds edits → holds more → holds (edits ++ more)
  all : ∀ {edits}, holds edits → holds [.all edits]
  unlessSkipping : ∀ {edits}, holds edits → holds [.unlessSkipping edits]

theorem Keeps.composes {α : Type} (part : Query → α) : Composes (Keeps part) where
  nil := .nil
  append := by
    intro edits more h h' query
    rw [Query.applyAll_append, h', h]
  all := by
    intro edits h
    refine .single fun query => ?_
    rw [Query.apply]
    exact h query
  unlessSkipping := by
    intro edits h
    refine .single fun query => ?_
    rw [Query.apply]
    split
    · rfl
    · exact h query

/-- Edits that carry a relation do so together if its queries agree on what is left out. -/
theorem Carries.composes {related : Query → Query → Prop}
    (hskips : ∀ {query other}, related query other → query.skipsUndefined = other.skipsUndefined) :
    Composes fun edits => Carries related edits edits where
  nil := .nil
  append := .append
  all := .all
  unlessSkipping := by
    intro edits h
    refine .single fun query other hrelated => ?_
    rw [Query.apply, Query.apply, hskips hrelated]
    split
    · exact hrelated
    · exact h _ _ hrelated

theorem Query.SameRows.skipsUndefined {query other : Query} (h : query.SameRows other) :
    query.skipsUndefined = other.skipsUndefined := by
  have hwhole : query.whole = other.whole := h
  show query.whole.skipsUndefined = other.whole.skipsUndefined
  rw [hwhole]

theorem Query.SameRows.eager {query other : Query} (h : query.SameRows other) :
    query.eager = other.eager := by
  have hwhole : query.whole = other.whole := h
  show query.whole.eager = other.whole.eager
  rw [hwhole]

/-! ### Conditions, orderings and windows -/

/-- Whether an edit adds a condition or an ordering or sets a bound of the window, whatever it
finds. -/
inductive Edit.Simple : Edit → Prop
  | filter (condition : Condition) : Simple (.filter condition)
  | orderBy (ordering : OrderBy) : Simple (.orderBy ordering)
  | limit (count : Nat) : Simple (.limit count)
  | offset (count : Nat) : Simple (.offset count)

/-- What composes and holds of simple edits alone holds of any of them in order. -/
theorem Composes.of_simple {holds : List Edit → Prop} (h : Composes holds)
    (hsimple : ∀ edit : Edit, edit.Simple → holds [edit]) {edits : List Edit}
    (hedits : ∀ edit ∈ edits, edit.Simple) : holds edits := by
  induction edits with
  | nil => exact h.nil
  | cons edit rest ih =>
      have hfirst := hsimple edit (hedits edit List.mem_cons_self)
      exact h.append hfirst (ih fun other hother => hedits other (List.mem_cons_of_mem _ hother))

namespace Edit.Simple

variable {edit : Edit}

theorem keeps_columns (h : edit.Simple) : Keeps Query.columns [edit] := by
  cases h <;> exact fun _ => rfl

theorem keeps_eager (h : edit.Simple) : Keeps Query.eager [edit] := by
  cases h <;> exact fun _ => rfl

theorem keeps_skipsUndefined (h : edit.Simple) : Keeps Query.skipsUndefined [edit] := by
  cases h <;> exact fun _ => rfl

/-- Conditions, orderings and windows are set without a look at the columns. -/
theorem blind (h : edit.Simple) : Blind [edit] := by
  refine .single fun query other hsame => ?_
  unfold Query.SameRows at hsame ⊢
  simp only [Query.whole, Query.mk.injEq] at hsame
  cases h <;> simp [Query.whole, Query.apply, hsame]

end Edit.Simple

end GraphFetch

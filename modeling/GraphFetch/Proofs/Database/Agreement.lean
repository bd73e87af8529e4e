/-
Queries that ask for the same rows.

An executor looks at the JSON form of a constant, so conditions whose constants have one
form select the same rows, whatever their notation.  Edits that do not look at the query act
on two such queries alike, and by induction on the relations that are attached so does a
whole load, if the modifiers of either query turn every relation's query into two that are
alike.  Statements show the notation of constants: they are the same where that is.
-/
import GraphFetch.Engine.Normalized
import GraphFetch.Proofs.Database.Runs
import GraphFetch.Proofs.Plan.Columns
import Mathlib.Data.List.Forall2

namespace GraphFetch

open Outcome (Both)

variable {texts : Prop}

/-! ### Queries -/

/-- Whether conditions ask for the same of the same column and, if that counts, in the same words.
-/
structure Condition.Alike (texts : Prop) (condition other : Condition) : Prop where
  column : condition.column = other.column
  operator : condition.operator = other.operator
  value : condition.value.map Const.toJson = other.value.map Const.toJson
  text : texts → condition.text = other.text

theorem Condition.Alike.refl (condition : Condition) : condition.Alike texts condition :=
  ⟨rfl, rfl, rfl, fun _ => rfl⟩

/-- The query without its conditions. -/
def Query.unconditional (query : Query) : Query := { query with conditions := [] }

/-- The query without the relations that it loads. -/
def Query.unloaded (query : Query) : Query := { query with eager := none }

/-- Whether queries are the same but for the constants of conditions, which are alike. -/
structure Query.Alike (texts : Prop) (query other : Query) : Prop where
  rest : query.unconditional = other.unconditional
  conditions : List.Forall₂ (Condition.Alike texts) query.conditions other.conditions

namespace Query.Alike

variable {query other : Query}

theorem refl (query : Query) : query.Alike texts query :=
  ⟨rfl, List.forall₂_same.mpr fun condition _ => .refl condition⟩

theorem skipsUndefined (h : query.Alike texts other) :
    query.skipsUndefined = other.skipsUndefined := by
  show query.unconditional.skipsUndefined = other.unconditional.skipsUndefined
  rw [h.rest]

theorem columns (h : query.Alike texts other) : query.columns = other.columns :=
  by
  show query.unconditional.columns = other.unconditional.columns
  rw [h.rest]

theorem entity (h : query.Alike texts other) : query.entity = other.entity :=
  by
  show query.unconditional.entity = other.unconditional.entity
  rw [h.rest]

theorem filter (h : query.Alike texts other) {condition condition' : Condition}
    (hcondition : condition.Alike texts condition') :
    (query.apply (.filter condition)).Alike texts (other.apply (.filter condition')) where
  rest := h.rest
  conditions := List.rel_append h.conditions (.cons hcondition .nil)

theorem eager (h : query.Alike texts other) : query.eager = other.eager := by
  show query.unconditional.eager = other.unconditional.eager
  rw [h.rest]

theorem unloaded (h : query.Alike texts other) : query.unloaded.Alike texts other.unloaded := by
  obtain ⟨hrest, hconditions⟩ := h
  refine ⟨?_, hconditions⟩
  show query.unconditional.unloaded = other.unconditional.unloaded
  rw [hrest]

theorem keyedQuery (h : query.Alike texts other) (join : Join) (keys : List Json) :
    (Database.keyedQuery query join keys).Alike texts (Database.keyedQuery other join keys) :=
  h.filter (.refl _)

end Query.Alike

/-! ### Edits -/

/-- A projection acts on queries alike. -/
theorem Query.Alike.select (columns : List ColumnRef) :
    Carries (Query.Alike texts) [.select columns] [.select columns] := by
  refine .single fun query other h => ?_
  obtain ⟨hrest, hconditions⟩ := h
  refine ⟨?_, hconditions⟩
  simp only [Query.unconditional, Query.mk.injEq] at hrest
  simp [Query.unconditional, Query.apply, hrest]

/-- Conditions, orderings and windows act on queries alike. -/
theorem Edit.Simple.alike {edit : Edit} (h : edit.Simple) :
    Carries (Query.Alike texts) [edit] [edit] := by
  refine .single fun query other halike => ?_
  cases h with
  | filter condition => exact halike.filter (.refl condition)
  | _ =>
      obtain ⟨hrest, hconditions⟩ := halike
      refine ⟨?_, hconditions⟩
      simp only [Query.unconditional, Query.mk.injEq] at hrest
      simp [Query.unconditional, Query.apply, hrest]

/-- Whether runs end alike and, if that counts, issue the same statements. -/
structure Run.Agrees {α : Type} (texts : Prop) (run other : Run α) : Prop where
  result : run.result = other.result
  statements : texts → run.statements = other.statements

namespace Run.Agrees

variable {α β : Type}

theorem refl (run : Run α) : run.Agrees texts run := ⟨rfl, fun _ => rfl⟩

theorem bind {run other : Run α} {next next' : α → Run β} (h : run.Agrees texts other)
    (hnext : ∀ value, (next value).Agrees texts (next' value)) :
    (run >>= next).Agrees texts (other >>= next') := by
  show (run.andThen next).Agrees texts (other.andThen next')
  unfold andThen
  rw [← h.result]
  cases run.result with
  | error error => exact ⟨rfl, h.statements⟩
  | ok value =>
      refine ⟨(hnext value).result, fun htexts => ?_⟩
      show run.statements ++ _ = other.statements ++ _
      rw [h.statements htexts, (hnext value).statements htexts]

end Run.Agrees

namespace Database

/-! ### Selections -/

/-- Whether two conditions are checked against the same value. -/
def BoundAlike (texts : Prop) (bound other : Bound) : Prop :=
  bound.1.Alike texts other.1 ∧ bound.2 = other.2

theorem bindConditions_alike (skipsUndefined : Bool) {conditions others : List Condition}
    (h : List.Forall₂ (Condition.Alike texts) conditions others) :
    Both (List.Forall₂ (BoundAlike texts)) (bindConditions skipsUndefined conditions)
      (bindConditions skipsUndefined others) := by
  induction h with
  | nil => exact .ok .nil
  | @cons condition other rest more hfirst _ ih =>
      have hvalue := hfirst.value
      rw [bindConditions, bindConditions, ← hfirst.operator, ← hfirst.column]
      cases hfind : condition.value with
      | none =>
          rw [hfind] at hvalue
          rw [Option.map_eq_none_iff.mp hvalue.symm]
          dsimp only
          split
          · exact ih.bind fun _ _ _ _ hrest => .pure (.cons ⟨hfirst, rfl⟩ hrest)
          · split
            · exact ih
            · exact .error _
      | some value =>
          rw [hfind] at hvalue
          obtain ⟨value', hfind', hjson⟩ := Option.map_eq_some_iff.mp hvalue.symm
          rw [hfind']
          exact ih.bind fun _ _ _ _ hrest => .pure (.cons ⟨hfirst, congrArg some hjson.symm⟩ hrest)

theorem all_satisfies_alike {bounds others : List Bound}
    (h : List.Forall₂ (BoundAlike texts) bounds others) (row : Row) :
    bounds.all (satisfies row) = others.all (satisfies row) := by
  induction h with
  | nil => rfl
  | @cons bound other _ _ hfirst _ ih =>
      have hsatisfies : satisfies row bound = satisfies row other := by
        unfold satisfies
        rw [hfirst.1.column, hfirst.1.operator, hfirst.2]
      rw [List.all_cons, List.all_cons, hsatisfies, ih]

theorem texts_alike {bounds others : List Bound} (h : List.Forall₂ (BoundAlike texts) bounds others)
    (htexts : texts) :
    (bounds.map fun bound => bound.1.text) = others.map fun bound => bound.1.text := by
  induction h with
  | nil => rfl
  | cons hfirst _ ih => rw [List.map_cons, List.map_cons, hfirst.1.text htexts, ih]

/-- **Queries that are alike select the same rows.** -/
theorem select_agrees (database : Database) {query other : Query} (h : query.Alike texts other) :
    (database.select query).Agrees texts (database.select other) := by
  have hbound := bindConditions_alike query.skipsUndefined h.conditions
  have hrest := h.rest
  simp only [Query.unconditional, Query.mk.injEq] at hrest
  obtain ⟨-, htable, hcolumns, -, horderings, hlimit, hoffset, -, hskips⟩ := hrest
  unfold select
  rw [← hskips]
  rcases hbound.elim with ⟨column, herror, herror'⟩ | ⟨bounds, others, hok, hok', hboth⟩
  · rw [herror, herror']
    exact .refl _
  · rw [hok, hok']
    refine ⟨congrArg Except.ok ?_, fun htexts => congrArg (· :: []) ?_⟩
    · unfold selected
      simp only [htable, horderings, hlimit, hoffset, all_satisfies_alike hboth]
    · have hempty : bounds.isEmpty = others.isEmpty := by
        cases hboth <;> rfl
      unfold statement
      simp only [htable, hcolumns, horderings, hlimit, hoffset, texts_alike hboth htexts, hempty]

/-! ### Loads -/

/-- Whether references to two tables of modifiers turn the query of a relation into queries that are
alike, or both lack the same. -/
def Refers (texts : Prop) (skipsUndefined : Bool) (modifiers others : ModifierTable)
    (references references' : List String) : Prop :=
  ∀ query : Query, query.skipsUndefined = skipsUndefined →
    Both (Query.Alike texts) (modifiedQuery modifiers query references)
      (modifiedQuery others query references')

theorem Refers.same (skipsUndefined : Bool) (modifiers : ModifierTable) (references : List String) :
    Refers texts skipsUndefined modifiers modifiers references references :=
  fun _ _ => .same _ fun query _ => .refl query

/-- References mean alike what stands under them in two tables. -/
theorem Refers.related {modifiers others : ModifierTable}
    (h : Named.Related (fun edit other => Carries (Query.Alike texts) [edit] [other])
      modifiers others)
    (skipsUndefined : Bool) (references : List String) :
    Refers texts skipsUndefined modifiers others references references := by
  have hmodified : ∀ {query other : Query}, query.Alike texts other →
      Both (Query.Alike texts) (modifiedQuery modifiers query references)
        (modifiedQuery others other references) := by
    induction references with
    | nil => exact fun halike => .ok halike
    | cons name rest ih =>
        intro query other halike
        rw [modifiedQuery, modifiedQuery]
        rcases h.find? name with ⟨hnone, hnone'⟩ | ⟨edit, edit', hfind, hfind', hcarries⟩
        · rw [hnone, hnone']
          exact .error name
        · rw [hfind, hfind']
          exact ih (hcarries _ _ halike)
  exact fun query _ => hmodified (.refl query)

end Database

/-- Whether nodes are others but for what they refer to. -/
inductive SameNodes (refer : List String → List String → Prop) :
    List RelationNode → List RelationNode → Prop
  | nil : SameNodes refer [] []
  | cons {name : String} {asName : Option String} {references references' : List String}
      {children below rest more : List RelationNode} (hreferences : refer references references')
      (hchildren : SameNodes refer children below) (hrest : SameNodes refer rest more) :
      SameNodes refer (⟨name, asName, references, children⟩ :: rest)
        (⟨name, asName, references', below⟩ :: more)

namespace SameNodes

variable {refer weaker : List String → List String → Prop} {nodes others : List RelationNode}

theorem refl (hrefl : ∀ references, refer references references) :
    ∀ nodes : List RelationNode, SameNodes refer nodes nodes
  | [] => .nil
  | ⟨_, _, references, children⟩ :: rest =>
    .cons (hrefl references) (refl hrefl children) (refl hrefl rest)

theorem mono (h : SameNodes refer nodes others)
    (hweaker : ∀ references references', refer references references' →
      weaker references references') : SameNodes weaker nodes others := by
  induction h with
  | nil => exact .nil
  | cons hreferences _ _ ihChildren ih => exact .cons (hweaker _ _ hreferences) ihChildren ih

theorem eq (h : SameNodes Eq nodes others) : nodes = others := by
  induction h with
  | nil => rfl
  | cons hreferences _ _ ihChildren ih => rw [hreferences, ihChildren, ih]

theorem isEmpty (h : SameNodes refer nodes others) : nodes.isEmpty = others.isEmpty := by
  cases h <;> rfl

theorem keepRelations (h : SameNodes refer nodes others) (row projected : Row) :
    Database.keepRelations nodes row projected = Database.keepRelations others row projected := by
  unfold Database.keepRelations
  induction h generalizing projected with
  | nil => rfl
  | cons _ _ _ _ ih => exact ih _

theorem project (h : SameNodes refer nodes others) {query other : Query}
    (hcolumns : query.columns = other.columns) :
    Database.project query nodes = Database.project other others := by
  funext row
  unfold Database.project
  rw [hcolumns]
  cases other.columns with
  | none => rfl
  | some columns => exact h.keepRelations row _

theorem attach {children below : List RelationNode} (h : SameNodes refer children below)
    {query other : Query} (hcolumns : query.columns = other.columns) {name : String}
    {asName : Option String} {references references' : List String} {relation : Relation}
    {links : Option (List Database.Link)} {related : List Row} :
    Database.attach query ⟨name, asName, references, children⟩ relation links related
      = Database.attach other ⟨name, asName, references', below⟩ relation links related := by
  funext owner
  unfold Database.attach
  rw [h.project hcolumns]
  rfl

/-- What is attached to rows under the same nodes is normalized the same. -/
theorem normalizeNodes (registry : Registry) (h : SameNodes refer nodes others) (entity : Entity)
    (row : Row) : Normalized.normalizeNodes registry entity row nodes
      = Normalized.normalizeNodes registry entity row others := by
  induction h generalizing entity row with
  | nil => rfl
  | cons _ _ _ ihChildren ih =>
      rw [Normalized.normalizeNodes, Normalized.normalizeNodes, Normalized.normalizeNode,
        Normalized.normalizeNode, ih]
      simp only [ihChildren]

theorem ofRows (registry : Registry) (h : SameNodes refer nodes others) (entity : Entity)
    (cardinality : Cardinality) (rows : List Row) :
    Normalized.ofRows registry entity nodes cardinality rows
      = Normalized.ofRows registry entity others cardinality rows := by
  unfold Normalized.ofRows Normalized.normalizeRow
  simp only [h.normalizeNodes registry]

end SameNodes

namespace Database

/-- **Loads by the same nodes agree** if their references make queries that are alike. -/
theorem loadNodes_agrees (database : Database) {modifiers others : ModifierTable}
    {skipsUndefined : Bool} {nodes nodes' : List RelationNode}
    (h : SameNodes (Refers texts skipsUndefined modifiers others) nodes nodes') (entity : Entity)
    (rows : List Row) :
    (loadNodes database modifiers skipsUndefined entity nodes rows).Agrees texts
      (loadNodes database others skipsUndefined entity nodes' rows) := by
  induction h generalizing entity rows with
  | nil => exact .refl _
  | @cons name asName references references' children below rest more hreferences hchildren _
      ihChildren ih =>
      rw [loadNodes, loadNodes]
      refine Run.Agrees.bind ?_ fun between => ih entity between
      rw [loadNode, loadNode]
      cases entity.relation? name with
      | none => exact .refl _
      | some relation =>
          dsimp only
          let start : Query :=
            { (database.registry.entity relation.target).query with skipsUndefined }
          rcases (hreferences start rfl).elim with
            ⟨unknown, herror, herror'⟩ | ⟨query, query', hok, hok', halike⟩
          · rw [herror, herror']
            exact .refl _
          · rw [hok, hok']
            refine .bind (.refl _) fun links => ?_
            have hkeyed := halike.keyedQuery relation.join
              ((links.map relatedKeys).getD (ownerKeys relation.join.ownerColumn rows))
            refine .bind (select_agrees database hkeyed) fun found =>
              .bind (ihChildren _ found) fun related => ?_
            rw [hchildren.attach hkeyed.columns]
            exact .refl _

/-- **Queries that are alike and attach the same relations are answered the same.** -/
theorem execute_agrees (database : Database) {query other : Query}
    (hquery : query.unloaded.Alike texts other.unloaded)
    (hattached : Both (SameNodes (Refers texts query.skipsUndefined query.loadModifiers
      other.loadModifiers)) query.attached other.attached) :
    (database.execute query).Agrees texts (database.execute other) := by
  rw [execute_eq, execute_eq]
  have hselect : (database.select query).Agrees texts (database.select other) :=
    show (database.select query.unloaded).Agrees texts (database.select other.unloaded) from
      select_agrees database hquery
  refine hselect.bind fun rows => ?_
  rcases hattached.elim with ⟨error, herror, herror'⟩ | ⟨nodes, others, hok, hok', hsame⟩
  · rw [herror, herror']
    exact .refl _
  · rw [hok, hok']
    have hskips : query.skipsUndefined = other.skipsUndefined := hquery.skipsUndefined
    have hentity : query.entity = other.entity := hquery.entity
    dsimp only
    rw [← hskips, ← hentity, hsame.project (show query.columns = other.columns from hquery.columns)]
    exact .bind (loadNodes_agrees database hsame _ rows) fun loaded => .refl _

end Database

end GraphFetch

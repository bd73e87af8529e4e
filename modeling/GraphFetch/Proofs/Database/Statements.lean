/-
Which statements an execution takes.

What a query and the relations below it need is known before any row is: one statement
for the query, and one for each node of its expression, behind another one that reads the
pivot table if the relation has one.  How many rows a level yields decides what the
statements ask for, never whether they are issued.  A run that is put together from others
issues its statements in the order of its parts, and if one part fails, the statements so
far are an initial segment of that order; so the order is built up along the recursion of
the load, and nothing has to be said of the rows.
-/
import GraphFetch.Database.Log
import GraphFetch.Proofs.Database.EagerLoad
import GraphFetch.Proofs.Expression.RoundTrip
import Mathlib.Data.List.Forall2

namespace GraphFetch

/-! ### Nodes in depth-first order -/

namespace RelationNode

mutual

/-- A node and then the nodes below it. -/
def preorder : RelationNode → List RelationNode
  | ⟨name, asName, modifiers, children⟩ =>
    ⟨name, asName, modifiers, children⟩ :: allPreorder children

/-- Nodes and those below them, each before what is below it. -/
def allPreorder : List RelationNode → List RelationNode
  | [] => []
  | node :: rest => preorder node ++ allPreorder rest

end

end RelationNode

open RelationNode (preorder allPreorder)

namespace Database

/-! ### What statements are for -/

/-- A node of an expression with the relation that it names. -/
structure Visit where
  node : RelationNode
  relation : Relation

/-- What a statement of an execution reads: the rows of the query, the pivot table of a relation
or its rows. -/
inductive Purpose
  | root
  | pivot (visit : Visit)
  | related (visit : Visit)

/-- What the statements for a relation read: its pivot table first, if it has one. -/
def Visit.purposes (visit : Visit) : List Purpose :=
  match visit.relation.join.through with
  | none => [.related visit]
  | some _ => [.pivot visit, .related visit]

mutual

/-- The visit of a node of an entity and then those of the nodes below it. -/
def visits (registry : Registry) (entity : Entity) : RelationNode → List Visit
  | ⟨name, asName, modifiers, children⟩ =>
    match entity.relation? name with
    | none => []
    | some relation =>
      ⟨⟨name, asName, modifiers, children⟩, relation⟩
        :: allVisits registry (registry.entity relation.target) children

/-- The visits of nodes of an entity and of those below them, in depth-first order.  A node whose
relation is unknown is not visited. -/
def allVisits (registry : Registry) (entity : Entity) : List RelationNode → List Visit
  | [] => []
  | node :: rest => visits registry entity node ++ allVisits registry entity rest

end

/-- The visits of the load of a query; there are none if its expression cannot be read. -/
def queryVisits (registry : Registry) (query : Query) : List Visit :=
  match query.attached with
  | .ok nodes => allVisits registry (registry.entity query.entity) nodes
  | .error _ => []

/-- What the statements of a query read, in order. -/
def purposes (registry : Registry) (query : Query) : List Purpose :=
  .root :: (queryVisits registry query).flatMap Visit.purposes

/-! ### What statements say -/

/-- A clause with its parts, left out if there are none. -/
def clause (word separator : String) (parts : List String) : List String :=
  if parts.isEmpty then [] else [word ++ " " ++ joined separator parts]

/-- The clauses of the statement of a query, in order.  Only the first two are always there. -/
def clauses (query : Query) (conditions : List Condition) : List String :=
  let columns := (query.columns.map fun columns => columns.map ColumnRef.text).getD ["*"]
  ["select " ++ joined ", " columns, "from " ++ query.table]
    ++ clause "where" " and " (conditions.map Condition.text)
    ++ clause "order by" ", " (query.orderings.map OrderBy.text)
    ++ clause "limit" "" (query.limit.toList.map toString)
    ++ clause "offset" "" (query.offset.toList.map toString)

theorem joined_concat {separator last : String} {texts : List String} (h : texts ≠ []) :
    joined separator (texts ++ [last]) = joined separator texts ++ separator ++ last := by
  unfold joined
  induction texts with
  | nil => exact absurd rfl h
  | cons first rest ih =>
      cases rest with
      | nil => simp
      | cons second more =>
          rw [List.cons_append, List.cons_append, String.intercalate_cons_cons,
            ← List.cons_append, ih (by simp), String.intercalate_cons_cons]
          simp only [String.append_assoc]

theorem joined_clause {texts : List String} (h : texts ≠ []) (word separator : String)
    (parts : List String) :
    joined " " (texts ++ clause word separator parts)
      = joined " " texts
        ++ if parts.isEmpty then "" else " " ++ word ++ " " ++ joined separator parts := by
  unfold clause
  split
  · simp
  · rw [joined_concat h]
    simp only [String.append_assoc]

/-- **The statement of a query is its clauses**: the columns that it asks for and its table, and
what it has of conditions, orderings, a limit and an offset. -/
theorem statement_eq (query : Query) (bound : List Bound) :
    statement query bound = joined " " (clauses query (bound.map Prod.fst)) := by
  have hstart : ∀ columns table : String,
      joined " " [columns, "from " ++ table] = columns ++ " from " ++ table := by
    intro columns table
    have hfrom : " " ++ ("from " ++ table) = " from " ++ table := String.append_assoc.symm
    unfold joined
    rw [String.intercalate_cons_cons, String.intercalate_singleton, String.append_assoc,
      String.append_assoc, hfrom]
  unfold clauses statement
  dsimp only
  rw [joined_clause (by simp), joined_clause (by simp), joined_clause (by simp),
    joined_clause (by simp), hstart]
  congr 4
  · cases query.columns <;> rfl
  · rw [List.map_map, List.isEmpty_map]
    rfl
  · rw [List.isEmpty_map]
  · cases query.limit <;> rfl
  · cases query.offset <;> rfl

/-- A text is the statement of a query. -/
def StatementOf (query : Query) (text : String) : Prop :=
  ∃ bound, bindConditions query.skipsUndefined query.conditions = .ok bound
    ∧ text = statement query bound

/-- A text is a statement that serves a purpose of a query, for whatever keys the rows have. -/
def Serves (database : Database) (query : Query) : Purpose → String → Prop
  | .root, text => StatementOf query text
  | .pivot visit, text => ∃ through keys, visit.relation.join.through = some through
      ∧ text = pivotStatement through keys
  | .related visit, text => ∃ related keys,
      relationQuery database query.loadModifiers query.skipsUndefined visit.relation visit.node
        = .ok related
      ∧ StatementOf (keyedQuery related visit.relation.join keys) text

end Database

/-! ### Runs that issue statements in order -/

namespace Run

variable {α β γ : Type} {serves : γ → String → Prop} {order later : List γ}

/-- A run issues one statement for each of some purposes, in order: for all of them if it succeeds,
and for an initial segment of them if it fails. -/
def Issues (serves : γ → String → Prop) (order : List γ) (run : Run α) : Prop :=
  ∃ issued, issued <+: order ∧ List.Forall₂ serves issued run.statements
    ∧ ∀ value, run.result = .ok value → issued = order

theorem Issues.done (value : α) : Issues serves [] (Run.done value) :=
  ⟨[], List.prefix_rfl, .nil, fun _ _ => rfl⟩

theorem Issues.pure (value : α) : Issues serves [] (Pure.pure value : Run α) :=
  Issues.done value

theorem Issues.fail (error : ExecutorError) : Issues serves order (Run.fail error : Run α) :=
  ⟨[], List.nil_prefix, .nil, nofun⟩

theorem Issues.issue {purpose : γ} {text : String} (h : serves purpose text) :
    Issues serves [purpose] (Run.issue text) :=
  ⟨[purpose], List.prefix_rfl, .cons h .nil, fun _ _ => rfl⟩

/-- One run after another issues its statements behind those of the first. -/
theorem Issues.bind {run : Run α} {next : α → Run β} (h : Issues serves order run)
    (hnext : ∀ value, run.result = .ok value → Issues serves later (next value)) :
    Issues serves (order ++ later) (run >>= next) := by
  obtain ⟨issued, hprefix, hserves, hall⟩ := h
  show Issues serves (order ++ later) (run.andThen next)
  unfold andThen
  cases hresult : run.result with
  | error error => exact ⟨issued, hprefix.trans (List.prefix_append _ _), hserves, nofun⟩
  | ok value =>
      obtain rfl := hall value hresult
      obtain ⟨more, hmore, hmoreServes, hmoreAll⟩ := hnext value hresult
      refine ⟨issued ++ more, (List.prefix_append_right_inj issued).mpr hmore,
        List.rel_append hserves hmoreServes, ?_⟩
      intro last hlast
      rw [hmoreAll last hlast]

/-- What is made of the result of a run takes no statement. -/
theorem Issues.map {run : Run α} (h : Issues serves order run) (f : α → β) :
    Issues serves order (run >>= fun value => Pure.pure (f value)) := by
  rw [← List.append_nil order]
  exact h.bind fun value _ => Issues.pure (f value)

end Run

namespace Database

open Run (Issues)

/-! ### Executions -/

/-- A selection takes one statement, or none if it fails. -/
theorem select_issues {database : Database} {query : Query} {γ : Type}
    {serves : γ → String → Prop} {purpose : γ}
    (h : ∀ text, StatementOf query text → serves purpose text) :
    Issues serves [purpose] (database.select query) := by
  unfold select
  cases hbound : bindConditions query.skipsUndefined query.conditions with
  | error column => exact Issues.fail _
  | ok bound => exact (Issues.issue (h _ ⟨bound, hbound, rfl⟩)).map fun _ => _

section

variable {database : Database} {query : Query}

/-- Reading the links of a relation takes one statement if it has a pivot table, and none if not. -/
theorem links_issues (visit : Visit) (keys : List Json) :
    Issues (Serves database query)
      (visit.relation.join.through.elim [] fun _ => [Purpose.pivot visit])
      (database.links visit.relation.join keys) := by
  unfold Database.links
  cases hthrough : visit.relation.join.through with
  | none => exact Issues.done none
  | some through =>
      exact (Issues.issue ⟨through, keys, hthrough, rfl⟩).map fun _ => _

theorem Visit.purposes_eq (visit : Visit) :
    visit.purposes = (visit.relation.join.through.elim [] fun _ => [Purpose.pivot visit])
      ++ [.related visit] := by
  unfold purposes
  cases visit.relation.join.through <;> rfl

mutual

/-- Whatever rows it is loaded for, a node takes the statements of the visits to it and below it. -/
theorem loadNode_issues : ∀ (node : RelationNode) (entity : Entity) (rows : List Row),
    Issues (Serves database query)
      ((visits database.registry entity node).flatMap Visit.purposes)
      (loadNode database query.loadModifiers query.skipsUndefined entity node rows)
  | ⟨name, asName, references, children⟩, entity, rows => by
    rw [loadNode, visits]
    cases hrelation : entity.relation? name with
    | none => exact Issues.fail _
    | some relation =>
        let visit : Visit := ⟨⟨name, asName, references, children⟩, relation⟩
        dsimp only
        cases hquery : modifiedQuery query.loadModifiers _ references with
        | error unknown => exact Issues.fail _
        | ok related =>
            dsimp only
            rw [List.flatMap_cons, show Visit.purposes _ = _ from visit.purposes_eq,
              List.append_assoc]
            refine (links_issues visit _).bind fun links _ => ?_
            refine (select_issues fun text htext => ⟨related, _, hquery, htext⟩).bind
              fun found _ => ?_
            exact (loadNodes_issues children _ found).map fun _ => _
  termination_by node => sizeOf node

/-- Whatever rows they are loaded for, nodes take the statements of their visits. -/
theorem loadNodes_issues : ∀ (nodes : List RelationNode) (entity : Entity) (rows : List Row),
    Issues (Serves database query)
      ((allVisits database.registry entity nodes).flatMap Visit.purposes)
      (loadNodes database query.loadModifiers query.skipsUndefined entity nodes rows)
  | [], _, rows => by
    rw [loadNodes, allVisits]
    exact Issues.done rows
  | node :: rest, entity, rows => by
    rw [loadNodes, allVisits, List.flatMap_append]
    exact (loadNode_issues node entity rows).bind fun between _ =>
      loadNodes_issues rest entity between
  termination_by nodes => sizeOf nodes

end

theorem execute_issues (database : Database) (query : Query) :
    Issues (Serves database query) (purposes database.registry query)
      (database.execute query) := by
  have hloads : ∀ nodes rows, Issues (Serves database query)
      ((allVisits database.registry (database.registry.entity query.entity) nodes).flatMap
        Visit.purposes)
      (loadNodes database query.loadModifiers query.skipsUndefined
        (database.registry.entity query.entity) nodes rows) :=
    fun nodes rows => loadNodes_issues nodes _ rows
  have hselect : Issues (Serves database query) [.root] (database.select query) :=
    select_issues fun _ htext => htext
  unfold purposes queryVisits
  rw [execute_eq, ← List.singleton_append]
  refine hselect.bind fun rows _ => ?_
  cases query.attached with
  | error error => exact Issues.fail _
  | ok nodes => exact (hloads nodes rows).map fun _ => _

mutual

/-- Every node that is loaded is visited. -/
theorem visits_of_loadNode : ∀ {node : RelationNode} {entity : Entity} {rows loaded : List Row},
    (loadNode database query.loadModifiers query.skipsUndefined entity node rows).result
      = .ok loaded →
    (visits database.registry entity node).map Visit.node = preorder node
  | ⟨name, asName, references, children⟩, entity, rows, loaded, h => by
    obtain ⟨relation, related, found, attached, hrelation, -, -, hchildren, -⟩ :=
      loadNode_ok.mp h
    rw [visits, preorder, show entity.relation? name = some relation from hrelation]
    exact congrArg _ (visits_of_loadNodes hchildren)
  termination_by node => sizeOf node

/-- All nodes that are loaded are visited. -/
theorem visits_of_loadNodes : ∀ {nodes : List RelationNode} {entity : Entity}
    {rows loaded : List Row},
    (loadNodes database query.loadModifiers query.skipsUndefined entity nodes rows).result
      = .ok loaded →
    (allVisits database.registry entity nodes).map Visit.node = allPreorder nodes
  | [], _, _, _, _ => by
    rw [allVisits, allPreorder, List.map_nil]
  | node :: rest, entity, rows, loaded, h => by
    obtain ⟨between, hnode, hrest⟩ := loadNodes_cons_ok.mp h
    rw [allVisits, allPreorder, List.map_append, visits_of_loadNode hnode,
      visits_of_loadNodes hrest]
  termination_by nodes => sizeOf nodes

end

/-- The visits of a query that succeeds are those of all nodes of its expression. -/
theorem visits_of_execute {rows : List Row} (h : (database.execute query).result = .ok rows) :
    ∃ nodes, query.attached = .ok nodes
      ∧ (queryVisits database.registry query).map Visit.node = allPreorder nodes := by
  obtain ⟨nodes, selected, loaded, hnodes, -, hloaded, -⟩ := execute_ok.mp h
  refine ⟨nodes, hnodes, ?_⟩
  unfold queryVisits
  rw [hnodes]
  exact visits_of_loadNodes hloaded

end

/-- How many statements a relation takes. -/
def Visit.count (visit : Visit) : Nat :=
  1 + if visit.relation.join.through.isSome then 1 else 0

theorem purposes_length (registry : Registry) (query : Query) :
    (purposes registry query).length
      = 1 + ((queryVisits registry query).map Visit.count).sum := by
  have hcount : ∀ visit : Visit, visit.purposes.length = visit.count := by
    intro visit
    unfold Visit.purposes Visit.count
    cases visit.relation.join.through <;> rfl
  unfold purposes
  rw [List.length_cons, List.length_flatMap, Nat.add_comm]
  simp only [hcount]

/-! ### The log -/

/-- What is asked of a database over time. -/
inductive Call
  | execute (query : Query)
  | clear

/-- The statements that a call issues. -/
def Call.statements (database : Database) : Call → List String
  | .execute query => (database.execute query).statements
  | .clear => []

/-- The log after a call. -/
def logged (database : Database) (log : StatementLog) : Call → StatementLog
  | .execute query => (database.executeLogged query log).2
  | .clear => log.clear

/-- The log after calls in order. -/
def allLogged (database : Database) (calls : List Call) : StatementLog :=
  calls.foldl database.logged .empty

/-- What the log says of all statements that were issued: it counts them, and keeps the last of
them. -/
structure Tallies (log : StatementLog) (issued : List String) : Prop where
  executed : log.executed = issued.length
  statements : log.statements <:+ issued

theorem Tallies.logged {log : StatementLog} {issued : List String} (h : Tallies log issued)
    (database : Database) (call : Call) :
    Tallies (database.logged log call) (issued ++ call.statements database) := by
  cases call with
  | execute query =>
      refine ⟨?_, ?_⟩
      · show log.executed + _ = _
        rw [h.executed, List.length_append]
        rfl
      · obtain ⟨cleared, rfl⟩ := h.statements
        exact ⟨cleared, (List.append_assoc _ _ _).symm⟩
  | clear =>
      show Tallies log.clear (issued ++ [])
      rw [List.append_nil]
      exact ⟨h.executed, List.nil_suffix⟩

theorem allLogged_tallies (database : Database) (calls : List Call) :
    Tallies (database.allLogged calls) (calls.flatMap (Call.statements database)) := by
  have hcalls : ∀ (calls : List Call) (log : StatementLog) (issued : List String),
      Tallies log issued →
      Tallies (calls.foldl database.logged log)
        (issued ++ calls.flatMap (Call.statements database)) := by
    intro calls
    induction calls with
    | nil =>
        intro log issued h
        rw [List.flatMap_nil, List.append_nil]
        exact h
    | cons call rest ih =>
        intro log issued h
        rw [List.flatMap_cons, ← List.append_assoc]
        exact ih _ _ (h.logged database call)
  exact hcalls calls .empty [] ⟨rfl, List.suffix_rfl⟩

/-! ### Statements of an execution -/

/-- **An execution takes one statement for its query and one or two for each node of its expression,
however many rows there are; one that fails has issued an initial segment of them; and the log
counts whatever was issued.** -/
theorem execute_statements (database : Database) :
    (∀ query rows, (database.execute query).result = .ok rows →
      ∃ nodes visits, query.attached = .ok nodes
        ∧ visits = allVisits database.registry (database.registry.entity query.entity) nodes
        ∧ visits.map Visit.node = allPreorder nodes
        ∧ List.Forall₂ (Serves database query) (.root :: visits.flatMap Visit.purposes)
            (database.execute query).statements
        ∧ (database.execute query).statements.length = 1 + (visits.map Visit.count).sum)
      ∧ (∀ query error, (database.execute query).result = .error error →
        ∃ issued, issued <+: purposes database.registry query
          ∧ List.Forall₂ (Serves database query) issued (database.execute query).statements)
      ∧ ∀ calls, Tallies (database.allLogged calls) (calls.flatMap (Call.statements database)) := by
  refine ⟨?_, ?_, database.allLogged_tallies⟩
  · intro query rows h
    obtain ⟨nodes, hnodes, hvisits⟩ := visits_of_execute h
    obtain ⟨issued, -, hserves, hall⟩ := execute_issues database query
    obtain rfl := hall rows h
    have hlength := hserves.length_eq.symm.trans (purposes_length database.registry query)
    unfold purposes queryVisits at hserves
    unfold queryVisits at hvisits hlength
    rw [hnodes] at hserves hvisits hlength
    exact ⟨nodes, _, hnodes, rfl, hvisits, hserves, hlength⟩
  · intro query error _
    obtain ⟨issued, hprefix, hserves, -⟩ := execute_issues database query
    exact ⟨issued, hprefix, hserves⟩

/-! ### Statements for people and their clubs -/

namespace Clubs

/-- All people with relations. -/
def peopleWith (nodes : List RelationNode) : Query := person.query.apply (.load nodes modifiers)

/-- The clubs of people, and then a relation that people do not have. -/
def strangers : List RelationNode := nodes ++ [⟨"friends", none, [], []⟩]

theorem attached_nodes : (peopleWith nodes).attached = .ok nodes := by
  have hnames : ∀ name ∈ ["clubs", "sorted", "founder", "by"], Expression.IsName name := by
    have hchecked : ["clubs", "sorted", "founder", "by"].all (fun name =>
        !name.toList.isEmpty && name.toList.all Expression.isNameChar) = true := by decide +kernel
    intro name hname
    have hown := List.all_eq_true.mp hchecked name hname
    rw [Bool.and_eq_true] at hown
    exact ⟨by simpa using hown.1, List.all_eq_true.mp hown.2⟩
  simp only [List.mem_cons, List.not_mem_nil, or_false, forall_eq_or_imp, forall_eq] at hnames
  show Expression.parse (Expression.render nodes) = .ok nodes
  refine Expression.parse_render ?_
  simp [nodes, RelationNode.AllValid, RelationNode.Valid, hnames]

theorem execute_nodes : (database.execute (peopleWith nodes)).result = .ok loaded :=
  execute_ok.mpr ⟨nodes, people, loaded, attached_nodes, rfl, rfl, rfl⟩

end Clubs

/-- The clubs of people take two statements and their founders one, and this is what is logged also
if a relation that people do not have comes behind them. -/
theorem execute_statements_clubs :
    (Clubs.database.execute (Clubs.peopleWith Clubs.nodes)).statements.length = 1 + ((1 + 1) + 1)
      ∧ (∃ issued, issued <+: purposes Clubs.database.registry (Clubs.peopleWith Clubs.strangers)
        ∧ issued.length = 4)
      ∧ (Clubs.database.allLogged [.execute (Clubs.peopleWith Clubs.nodes), .clear,
          .execute (Clubs.peopleWith Clubs.strangers)]).executed = 8 := by
  have hstatements : ∀ nodes ∈ [Clubs.nodes, Clubs.strangers],
      (Clubs.database.execute (Clubs.peopleWith nodes)).statements.length = 4 := by
    decide +kernel
  simp only [List.mem_cons, List.not_mem_nil, or_false, forall_eq_or_imp, forall_eq] at hstatements
  obtain ⟨hsucceeds, hfails, htallies⟩ := execute_statements Clubs.database
  refine ⟨?_, ?_, ?_⟩
  · obtain ⟨nodes, visits, hnodes, rfl, -, -, hlength⟩ := hsucceeds _ _ Clubs.execute_nodes
    obtain rfl : Clubs.nodes = nodes := Except.ok.inj (Clubs.attached_nodes.symm.trans hnodes)
    exact hlength
  · have hfailed : (Clubs.database.execute (Clubs.peopleWith Clubs.strangers)).result.isOk
        = false := by decide +kernel
    obtain ⟨error, herror⟩ : ∃ error,
        (Clubs.database.execute (Clubs.peopleWith Clubs.strangers)).result = .error error := by
      revert hfailed
      cases (Clubs.database.execute (Clubs.peopleWith Clubs.strangers)).result with
      | ok rows => simp [Except.isOk, Except.toBool]
      | error error => exact fun _ => ⟨error, rfl⟩
    obtain ⟨issued, hprefix, hserves⟩ := hfails _ error herror
    exact ⟨issued, hprefix, hserves.length_eq.trans hstatements.2⟩
  · rw [(htallies _).executed]
    simp [Call.statements, hstatements]

end Database

end GraphFetch

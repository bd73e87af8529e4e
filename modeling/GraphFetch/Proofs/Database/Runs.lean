/-
What a successful run did.

A run is a sequence of statements and a result, and a sequence of runs succeeds only
if each of them does.  Here that is read backwards: from the success of a selection,
of the reading of a pivot table and of the loading of relations follow what each step
of them yielded.  Nothing later has to open these definitions again.
-/
import GraphFetch.Database.Load
import GraphFetch.Proofs.Json.Named

namespace GraphFetch

/-! ### Sequences of runs -/

namespace Run

variable {α β : Type}

theorem bind_ok {run : Run α} {next : α → Run β} {value : β} :
    (run >>= next).result = .ok value
      ↔ ∃ first, run.result = .ok first ∧ (next first).result = .ok value := by
  show (run.andThen next).result = _ ↔ _
  unfold andThen
  cases run.result <;> simp

theorem pure_ok {value other : α} : (pure value : Run α).result = .ok other ↔ value = other := by
  show Except.ok value = Except.ok other ↔ _
  simp

theorem done_ok {value other : α} : (done value).result = .ok other ↔ value = other :=
  pure_ok

theorem issue_bind_ok {statement : String} {next : Unit → Run β} {value : β} :
    (issue statement >>= next).result = .ok value ↔ (next ()).result = .ok value := by
  rw [bind_ok]
  constructor
  · rintro ⟨first, -, h⟩
    exact h
  · intro h
    exact ⟨(), rfl, h⟩

end Run

/-! ### Values in conditions -/

namespace Const

mutual

theorem toJson_ofJson (value : Json) : (ofJson value).toJson = value := by
  cases value with
  | arr items => rw [ofJson, toJson, toJsonItems_ofJsonItems]
  | obj members => rw [ofJson, toJson, toJsonMembers_ofJsonMembers]
  | _ => rfl

theorem toJsonItems_ofJsonItems (items : List Json) : toJsonItems (ofJsonItems items) = items := by
  match items with
  | [] => rfl
  | item :: rest => rw [ofJsonItems, toJsonItems, toJson_ofJson, toJsonItems_ofJsonItems]

theorem toJsonMembers_ofJsonMembers (members : List (String × Json)) :
    toJsonMembers (ofJsonMembers members) = members := by
  match members with
  | [] => rfl
  | (name, value) :: rest =>
      rw [ofJsonMembers, toJsonMembers, toJson_ofJson, toJsonMembers_ofJsonMembers]

end

end Const

/-! ### Loads of queries -/

/-- The relations that a query attaches to its rows. -/
def Query.attached (query : Query) : Except ExpressionError (List RelationNode) :=
  match query.eager with
  | none => .ok []
  | some load => Expression.parse load.expression

/-- The modifiers that the relations of a query refer to. -/
def Query.loadModifiers (query : Query) : ModifierTable :=
  (query.eager.map EagerLoad.modifiers).getD []

namespace Database

/-! ### Selections -/

theorem select_ok {database : Database} {query : Query} {rows : List Row} :
    (database.select query).result = .ok rows
      ↔ ∃ bound, bindConditions query.skipsUndefined query.conditions = .ok bound
          ∧ database.selected query bound = rows := by
  unfold select
  cases bindConditions query.skipsUndefined query.conditions with
  | error column => simp [Run.fail]
  | ok bound => simp [Run.issue_bind_ok, Run.pure_ok]

/-- A condition with a value is checked against it, behind those there are. -/
theorem bindConditions_append (skipsUndefined : Bool) (column : String) (operator : Operator)
    (value : Const) (conditions : List Condition) :
    bindConditions skipsUndefined (conditions ++ [⟨column, operator, some value⟩])
      = (bindConditions skipsUndefined conditions).map
          (· ++ [(⟨column, operator, some value⟩, some value.toJson)]) := by
  induction conditions with
  | nil => rfl
  | cons condition rest ih =>
      rw [List.cons_append, bindConditions, bindConditions, ih]
      cases condition.value with
      | some v => cases bindConditions skipsUndefined rest <;> rfl
      | none =>
          cases condition.operator.isUnary <;> cases skipsUndefined <;>
            cases bindConditions _ rest <;> rfl

/-- The key condition of a relation's query, with the keys it is checked against. -/
def keyBound (join : Join) (keys : List Json) : Bound :=
  (⟨join.relatedColumn, .isIn, some (Const.ofJson (.arr keys))⟩, some (.arr keys))

theorem satisfies_keyBound (join : Join) (keys : List Json) (row : Row) :
    satisfies row (keyBound join keys)
      = (!(columnValue row join.relatedColumn).isNull
          && keys.any (Comparison.equals (columnValue row join.relatedColumn))) :=
  rfl

/-- A relation's query selects among its keys the rows that its own conditions admit. -/
theorem select_keyedQuery_ok {database : Database} {query : Query} {join : Join}
    {keys : List Json} {rows : List Row} :
    (database.select (keyedQuery query join keys)).result = .ok rows
      ↔ ∃ bound, bindConditions query.skipsUndefined query.conditions = .ok bound
          ∧ database.selected query (bound ++ [keyBound join keys]) = rows := by
  have hbound : bindConditions query.skipsUndefined (keyedQuery query join keys).conditions
      = (bindConditions query.skipsUndefined query.conditions).map
          (· ++ [keyBound join keys]) := by
    show bindConditions _ (query.conditions ++ [_]) = _
    rw [bindConditions_append, Const.toJson_ofJson]
    rfl
  rw [select_ok]
  show (∃ bound, bindConditions query.skipsUndefined _ = _ ∧ _) ↔ _
  rw [hbound]
  cases bindConditions query.skipsUndefined query.conditions with
  | error column => simp [Except.map]
  | ok bound =>
      simp only [Except.map, Except.ok.injEq]
      constructor
      · rintro ⟨_, rfl, h⟩
        exact ⟨bound, rfl, h⟩
      · rintro ⟨_, rfl, h⟩
        exact ⟨_, rfl, h⟩

/-! ### Relations -/

/-- The links that a join has to some owners' keys, if it goes over a pivot table. -/
def linked (database : Database) (join : Join) (keys : List Json) : Option (List Link) :=
  join.through.map fun through => linksOf through keys (database.table through.table)

/-- The keys that a relation's query asks for. -/
def wantedKeys (database : Database) (join : Join) (keys : List Json) : List Json :=
  ((database.linked join keys).map relatedKeys).getD keys

theorem links_ok {database : Database} {join : Join} {keys : List Json}
    {links : Option (List Link)} :
    (database.links join keys).result = .ok links ↔ database.linked join keys = links := by
  unfold Database.links linked
  cases join.through with
  | none => simp [Run.done_ok]
  | some through => simp [Run.issue_bind_ok, Run.pure_ok]

/-- The query of a relation before its keys are known, from the target's own. -/
def relationQuery (database : Database) (modifiers : ModifierTable) (skipsUndefined : Bool)
    (relation : Relation) (node : RelationNode) : Except String Query :=
  let target := database.registry.entity relation.target
  modifiedQuery modifiers { target.query with skipsUndefined } node.modifiers

variable {database : Database} {modifiers : ModifierTable} {skipsUndefined : Bool}
  {entity : Entity}

/-- **What one relation of a load fetched and attached.** -/
theorem loadNode_ok {node : RelationNode} {rows loaded : List Row} :
    (loadNode database modifiers skipsUndefined entity node rows).result = .ok loaded
      ↔ ∃ relation query found related,
          entity.relation? node.name = some relation
          ∧ relationQuery database modifiers skipsUndefined relation node = .ok query
          ∧ (database.select (keyedQuery query relation.join
              (database.wantedKeys relation.join
                (ownerKeys relation.join.ownerColumn rows)))).result = .ok found
          ∧ (loadNodes database modifiers skipsUndefined
              (database.registry.entity relation.target) node.children found).result = .ok related
          ∧ rows.map (attach query node relation
              (database.linked relation.join (ownerKeys relation.join.ownerColumn rows)) related)
              = loaded := by
  obtain ⟨name, asName, references, children⟩ := node
  rw [loadNode]
  cases hrelation : entity.relation? name with
  | none => simp [Run.fail]
  | some relation =>
      cases hquery : relationQuery database modifiers skipsUndefined relation
          ⟨name, asName, references, children⟩ with
      | error unknown =>
          unfold relationQuery at hquery
          simp [hquery, Run.fail, relationQuery]
      | ok query =>
          unfold relationQuery at hquery
          simp only [hquery, Run.bind_ok, links_ok, Run.pure_ok]
          constructor
          · rintro ⟨links, rfl, found, hfound, related, hrelated, h⟩
            exact ⟨relation, query, found, related, rfl, hquery, hfound, hrelated, h⟩
          · rintro ⟨relation', query', found, related, hr, hq, hfound, hrelated, h⟩
            cases hr
            obtain rfl : query = query' := by simpa [relationQuery, hquery] using hq
            exact ⟨_, rfl, found, hfound, related, hrelated, h⟩

theorem loadNodes_nil_ok {rows loaded : List Row} :
    (loadNodes database modifiers skipsUndefined entity [] rows).result = .ok loaded
      ↔ rows = loaded := by
  rw [loadNodes, Run.done_ok]

theorem loadNodes_cons_ok {node : RelationNode} {rest : List RelationNode}
    {rows loaded : List Row} :
    (loadNodes database modifiers skipsUndefined entity (node :: rest) rows).result = .ok loaded
      ↔ ∃ between,
          (loadNode database modifiers skipsUndefined entity node rows).result = .ok between
          ∧ (loadNodes database modifiers skipsUndefined entity rest between).result
              = .ok loaded := by
  rw [loadNodes, Run.bind_ok]

/-- What a load attaches stands under the keys of its nodes, and all else of a row stays. -/
theorem loadNodes_same {nodes : List RelationNode} {rows loaded : List Row}
    (h : (loadNodes database modifiers skipsUndefined entity nodes rows).result = .ok loaded) :
    ∃ load : Row → Row, rows.map load = loaded
      ∧ ∀ row, (Named.Distinct row → Named.Distinct (load row))
        ∧ ∀ name ∉ nodes.map RelationNode.key,
          Named.find? name (load row) = Named.find? name row := by
  induction nodes generalizing rows with
  | nil =>
      obtain rfl := loadNodes_nil_ok.mp h
      exact ⟨id, List.map_id rows, fun row => ⟨id, fun _ _ => rfl⟩⟩
  | cons node rest ih =>
      obtain ⟨between, hnode, hrest⟩ := loadNodes_cons_ok.mp h
      obtain ⟨relation, query, found, related, -, -, -, -, rfl⟩ := loadNode_ok.mp hnode
      obtain ⟨load, rfl, hload⟩ := ih hrest
      let attached := attach query node relation
        (database.linked relation.join (ownerKeys relation.join.ownerColumn rows)) related
      refine ⟨fun row => load (attached row), ?_, fun row => ?_⟩
      · rw [List.map_map]
        rfl
      · obtain ⟨hdistinct, hsame⟩ := hload (attached row)
        refine ⟨fun hrow => hdistinct (hrow.put _ _), fun name hname => ?_⟩
        rw [List.map_cons, List.mem_cons, not_or] at hname
        rw [hsame name hname.2]
        exact Named.find?_put_of_ne hname.1 _ _

/-! ### Queries -/

/-- A query without an eager load attaches nothing to its rows. -/
theorem execute_eq (query : Query) :
    database.execute query = (do
      let rows ← database.select query
      match query.attached with
      | .error error => .fail (.expression error)
      | .ok nodes => do
        let entity := database.registry.entity query.entity
        let loaded ← loadNodes database query.loadModifiers query.skipsUndefined entity nodes rows
        return loaded.map (project query nodes)) := by
  unfold execute Query.attached Query.loadModifiers
  refine congrArg (database.select query >>= ·) (funext fun rows => ?_)
  cases query.eager with
  | none => rfl
  | some load => rfl

/-- A query is answered with the rows it selects, loaded and projected. -/
theorem execute_ok {query : Query} {rows : List Row} :
    (database.execute query).result = .ok rows
      ↔ ∃ nodes selected loaded, query.attached = .ok nodes
        ∧ (database.select query).result = .ok selected
        ∧ (loadNodes database query.loadModifiers query.skipsUndefined
            (database.registry.entity query.entity) nodes selected).result = .ok loaded
        ∧ loaded.map (project query nodes) = rows := by
  rw [execute_eq, Run.bind_ok]
  cases query.attached with
  | error error =>
      constructor
      · rintro ⟨selected, -, h⟩
        cases h
      · rintro ⟨nodes, selected, loaded, hnodes, -⟩
        cases hnodes
  | ok nodes =>
      simp only [Run.bind_ok, Run.pure_ok]
      constructor
      · rintro ⟨selected, hselected, loaded, hloaded, h⟩
        exact ⟨nodes, selected, loaded, rfl, hselected, hloaded, h⟩
      · rintro ⟨others, selected, loaded, hnodes, hselected, hloaded, h⟩
        cases hnodes
        exact ⟨selected, hselected, loaded, hloaded, h⟩

end Database

end GraphFetch

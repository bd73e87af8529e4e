/-
Batched loading is loading for each owner.

The conditions under which relations can be fetched for all owners together are those a
schema can be checked for: no window on a relation's query, nothing attached over a
column that a join reads, join keys that are equal only if they read the same, and
columns to sort by whose values compare.
-/
import GraphFetch.Proofs.Database.Batching
import GraphFetch.Proofs.Json.Named
import GraphFetch.Proofs.Json.Text

namespace GraphFetch

namespace Database

/-! ### Owners without a key -/

theorem ownerKeys_null {column : String} {owner : Row}
    (hnull : ∀ key, Named.find? column owner = some key → key.isNull = true) :
    ownerKeys column [owner] = [] := by
  rw [List.eq_nil_iff_forall_not_mem]
  intro key hkey
  obtain ⟨hfind, hkeyNull⟩ := mem_ownerKeys_singleton.mp hkey
  rw [hnull key hfind] at hkeyNull
  exact absurd hkeyNull (by simp)

theorem wantedKeys_nil (database : Database) (join : Join) : database.wantedKeys join [] = [] := by
  unfold wantedKeys linked
  cases join.through with
  | none => rfl
  | some through =>
      have hnone : linksOf through [] (database.table through.table) = [] :=
        List.filter_eq_nil_iff.mpr fun _ _ h => absurd h (by simp)
      simp only [Option.map_some, Option.getD_some, hnone]
      rfl

/-- Nothing has one of no keys. -/
theorem selected_keyBound_nil (database : Database) (query : Query) (bound : List Bound)
    (join : Join) : database.selected query (bound ++ [keyBound join []]) = [] := by
  have hnone : (database.table query.table).filter
      (fun row => (bound ++ [keyBound join []]).all (satisfies row)) = [] := by
    rw [List.filter_eq_nil_iff]
    intro row _
    rw [List.all_append, List.all_cons, satisfies_keyBound]
    simp
  have hsorted : ∀ orderings : List OrderBy, sortByAll orderings [] = [] := by
    intro orderings
    induction orderings with
    | nil => rfl
    | cons ordering rest ih =>
        show sortBy ordering (sortByAll rest []) = []
        rw [ih]
        rfl
  unfold selected
  dsimp only
  rw [hnone, hsorted]
  unfold window
  cases query.limit <;> simp

/-- An owner whose key is null or missing gets no related rows. -/
theorem loadNodeFor_null {database : Database} {modifiers : ModifierTable} {skipsUndefined : Bool}
    {entity : Entity} {node : RelationNode} {relation : Relation} {owner out : Row}
    (hrelation : entity.relation? node.name = some relation)
    (hnull : ∀ key, Named.find? relation.join.ownerColumn owner = some key → key.isNull = true)
    (h : (loadNodeFor database modifiers skipsUndefined entity node owner).result = .ok out) :
    out = Named.put node.key (relationValue relation.kind []) owner := by
  obtain ⟨name, asName, references, children⟩ := node
  rw [loadNodeFor, show entity.relation? name = some relation from hrelation] at h
  dsimp only at h
  split at h
  · exact absurd h (by simp [Run.fail])
  · simp only [Run.bind_ok, links_ok, Run.pure_ok] at h
    obtain ⟨links, rfl, found, hfound, related, hrelated, rfl⟩ := h
    rw [ownerKeys_null hnull] at hfound
    have hwanted := wantedKeys_nil database relation.join
    unfold wantedKeys at hwanted
    rw [hwanted] at hfound
    obtain ⟨bound, -, rfl⟩ := select_keyedQuery_ok.mp hfound
    rw [selected_keyBound_nil, eachRow, Run.done_ok] at hrelated
    rw [← hrelated]
    rfl

/-! ### All owners together and each alone -/

/-- **Whatever a batched load attaches to an owner, at any depth, is what it gets when the relations
are fetched for it alone; and an owner without a key gets no related rows.**  The keys' numbers are
taken to be such as values can carry. -/
theorem loadNodes_eq_each {database : Database} {modifiers : ModifierTable} {skipsUndefined : Bool}
    {entity : Entity} {nodes : List RelationNode} {rows loaded : List Row}
    (hwindow : ∀ {owner node relation query}, Occurs database.registry entity nodes owner node →
      owner.relation? node.name = some relation →
      relationQuery database modifiers skipsUndefined relation node = .ok query →
      query.limit = none ∧ query.offset = none)
    (hkeys : ∀ {owner node column}, Occurs database.registry entity nodes owner node →
      JoinColumn database.registry entity nodes column → node.key ≠ column)
    (htexts : ∀ {a b}, JoinKey database entity nodes rows a → JoinKey database entity nodes rows b →
      a.isNull = false → b.isNull = false → Comparison.equals a b = true → a.text = b.text)
    (hvalues : ∀ {a}, JoinKey database entity nodes rows a → a.Representable)
    (hsortable : ∀ {owner node relation query}, Occurs database.registry entity nodes owner node →
      owner.relation? node.name = some relation →
      relationQuery database modifiers skipsUndefined relation node = .ok query →
      ∀ ordering ∈ query.orderings, Sortable ordering (database.table query.table))
    (h : (loadNodes database modifiers skipsUndefined entity nodes rows).result = .ok loaded) :
    List.Forall₂ (fun owner row =>
        (loadNodesFor database modifiers skipsUndefined entity nodes owner).result = .ok row)
      rows loaded
      ∧ ∀ {entity node relation owner out}, entity.relation? node.name = some relation →
        (∀ key, Named.find? relation.join.ownerColumn owner = some key → key.isNull = true) →
        (loadNodeFor database modifiers skipsUndefined entity node owner).result = .ok out →
        out = Named.put node.key (relationValue relation.kind []) owner := by
  have exact : ExactKeys (JoinKey database entity nodes rows) := {
    equal := fun ha hb hna hnb heq =>
      Json.text_injective (hvalues ha) (hvalues hb) (htexts ha hb hna hnb heq)
    text := fun ha hb heq => Json.text_injective (hvalues ha) (hvalues hb) heq }
  have apart : LoadsApart database modifiers skipsUndefined entity nodes rows := {
    exact
    key_ne := hkeys
    separable := fun hnode hrelation hquery =>
      ⟨(hwindow hnode hrelation hquery).1, (hwindow hnode hrelation hquery).2,
        hsortable hnode hrelation hquery⟩ }
  have howners : ∀ node ∈ nodes, OwnerKeysIn database entity nodes rows entity node rows :=
    fun node hnode relation hrelation row hrow key hkey => .owner hnode hrelation hrow hkey
  refine ⟨?_, loadNodeFor_null⟩
  exact (loadNodes_each apart nodes (fun node hnode => .root hnode) howners h).imp
    fun _ _ hrow => hrow.1

/-! ### People and their clubs -/

namespace Clubs

def person : Entity :=
  { id := 0, name := "Person", table := "people", columns := [], virtuals := [], filters := [],
    customSingle := none, customList := none,
    relations := [("clubs", ⟨"clubs", .many, 1,
      ⟨"id", "id", some ⟨"memberships", "person_id", "club_id"⟩⟩⟩)] }

def club : Entity :=
  { id := 1, name := "Club", table := "clubs", columns := [], virtuals := [], filters := [],
    customSingle := none, customList := none,
    relations := [("founder", ⟨"founder", .one, 0, ⟨"founder_id", "id", none⟩⟩)] }

def people : List Row := [[("id", .str "ada")], [("id", .str "ben")], [("id", .null)]]

def clubs : List Row :=
  [[("id", .str "go"), ("founder_id", .null)], [("id", .str "chess"), ("founder_id", .str "ben")]]

def memberships : List Row :=
  [[("person_id", .str "ada"), ("club_id", .str "chess")],
    [("person_id", .str "ben"), ("club_id", .str "go")],
    [("person_id", .str "ben"), ("club_id", .str "chess")]]

def database : Database :=
  ⟨⟨[person, club]⟩, [("people", people), ("clubs", clubs), ("memberships", memberships)]⟩

/-- The clubs of a person by identifier, each with its founder. -/
def nodes : List RelationNode :=
  [⟨"clubs", none, ["sorted"], [⟨"founder", some "by", [], []⟩]⟩]

def modifiers : ModifierTable := [("sorted", .orderBy ⟨"id", .ascending⟩)]

def chess : Json :=
  .obj [("id", .str "chess"), ("founder_id", .str "ben"), ("by", .obj [("id", .str "ben")])]

def go : Json := .obj [("id", .str "go"), ("founder_id", .null), ("by", .null)]

def loaded : List Row :=
  [[("id", .str "ada"), ("clubs", .arr [chess])],
    [("id", .str "ben"), ("clubs", .arr [chess, go])],
    [("id", .null), ("clubs", .arr [])]]

theorem occurs_cases {owner : Entity} {node : RelationNode}
    (h : Occurs database.registry person nodes owner node) :
    (owner = person ∧ node.name = "clubs" ∧ node.key = "clubs" ∧ node.modifiers = ["sorted"]
        ∧ node.children = [⟨"founder", some "by", [], []⟩])
      ∨ (owner = club ∧ node.name = "founder" ∧ node.key = "by" ∧ node.modifiers = []
        ∧ node.children = []) := by
  induction h with
  | root hnode =>
      rw [List.mem_singleton.mp hnode]
      exact Or.inl ⟨rfl, rfl, rfl, rfl, rfl⟩
  | child _ hrelation hchild ih =>
      rcases ih with ⟨rfl, hname, -, -, hchildren⟩ | ⟨-, -, -, -, hchildren⟩
      · rw [hname] at hrelation
        cases hrelation
        rw [hchildren] at hchild
        rw [List.mem_singleton.mp hchild]
        exact Or.inr ⟨rfl, rfl, rfl, rfl, rfl⟩
      · rw [hchildren] at hchild
        exact absurd hchild (by simp)

/-- Whether a value is a name or nothing. -/
def isName : Json → Bool
  | .null => true
  | .str _ => true
  | _ => false

theorem comparable_of_isName {a b : Json} (ha : isName a = true) (hb : isName b = true) :
    Comparison.Comparable a b := by
  cases a <;> cases b <;> trivial

theorem eq_of_equals {a b : Json} (ha : isName a = true) (h : Comparison.equals a b = true) :
    a = b := by
  cases a <;> cases b <;> simp_all [Comparison.equals, Json.same, isName]

theorem representable_of_isName {a : Json} (ha : isName a = true) : a.Representable := by
  cases a <;> trivial

theorem isName_of_find? {name column : String} {row : Row} {key : Json}
    (hrow : row ∈ database.table name) (hkey : Named.find? column row = some key) :
    isName key = true := by
  have hall : database.tables.all (fun table => table.2.all fun row => row.all fun member =>
      isName member.2) = true := rfl
  unfold table at hrow
  cases hfind : Named.find? name database.tables with
  | none => simp [hfind] at hrow
  | some rows =>
      rw [hfind, Option.getD_some] at hrow
      have htable := List.all_eq_true.mp hall _ (Named.mem_of_find? hfind)
      exact List.all_eq_true.mp (List.all_eq_true.mp htable row hrow) _ (Named.mem_of_find? hkey)

theorem isName_columnValue {name : String} {row : Row} (hrow : row ∈ database.table name)
    (column : String) : isName (columnValue row column) = true := by
  unfold columnValue
  cases hkey : Named.find? column row with
  | none => rfl
  | some key => exact isName_of_find? hrow hkey

theorem isName_of_joinKey {key : Json} (h : JoinKey database person nodes people key) :
    isName key = true := by
  cases h with
  | owner _ _ hrow hkey => exact isName_of_find? (show _ ∈ database.table "people" from hrow) hkey
  | below _ _ _ _ hrow hkey => exact isName_of_find? hrow hkey
  | related _ _ hrow hkey => exact isName_of_find? hrow hkey
  | pivot _ _ _ hrow hkey =>
      rcases hkey with hkey | hkey
      · exact isName_of_find? hrow hkey
      · exact isName_of_find? hrow hkey

theorem joinColumn_cases {column : String} (h : JoinColumn database.registry person nodes column) :
    column = "id" ∨ column = "founder_id" := by
  obtain ⟨owner, node, relation, hnode, hrelation, hcolumn⟩ := h
  rcases occurs_cases hnode with ⟨rfl, hname, -⟩ | ⟨rfl, hname, -⟩
  · rw [hname] at hrelation
    cases hrelation
    exact Or.inl (hcolumn.elim id id)
  · rw [hname] at hrelation
    cases hrelation
    exact hcolumn.symm

/-- The queries of the two relations have no window and sort by identifiers at most. -/
theorem relationQuery_cases {owner : Entity} {node : RelationNode} {relation : Relation}
    {query : Query} (hnode : Occurs database.registry person nodes owner node)
    (hrelation : owner.relation? node.name = some relation)
    (hquery : relationQuery database modifiers false relation node = .ok query) :
    (query.limit = none ∧ query.offset = none)
      ∧ ∀ ordering ∈ query.orderings, Sortable ordering (database.table query.table) := by
  have hcompare : ∀ {name column : String} {a b : Row}, a ∈ database.table name →
      b ∈ database.table name →
      Comparison.Comparable (columnValue a column) (columnValue b column) :=
    fun ha hb => comparable_of_isName (isName_columnValue ha _) (isName_columnValue hb _)
  rcases occurs_cases hnode with ⟨rfl, hname, -, hmodifiers, -⟩ | ⟨rfl, hname, -, hmodifiers, -⟩
  · rw [hname] at hrelation
    cases hrelation
    unfold relationQuery at hquery
    rw [hmodifiers] at hquery
    cases hquery
    exact ⟨⟨rfl, rfl⟩, fun ordering _ a ha b hb => hcompare ha hb⟩
  · rw [hname] at hrelation
    cases hrelation
    unfold relationQuery at hquery
    rw [hmodifiers] at hquery
    cases hquery
    exact ⟨⟨rfl, rfl⟩, fun ordering _ a ha b hb => hcompare ha hb⟩

end Clubs

/-- The conditions hold of clubs with members in common, one of whom has no key. -/
theorem loadNodes_eq_each_clubs :
    List.Forall₂ (fun owner row =>
        (loadNodesFor Clubs.database Clubs.modifiers false Clubs.person Clubs.nodes owner).result
          = .ok row)
      Clubs.people Clubs.loaded := by
  refine (loadNodes_eq_each
    (fun hnode hrelation hquery => (Clubs.relationQuery_cases hnode hrelation hquery).1)
    (fun hnode hcolumn => ?_) (fun ha hb _ _ heq => ?_) (fun ha => ?_)
    (fun hnode hrelation hquery => (Clubs.relationQuery_cases hnode hrelation hquery).2)
    (show (loadNodes Clubs.database Clubs.modifiers false Clubs.person Clubs.nodes
      Clubs.people).result = .ok Clubs.loaded from rfl)).1
  · rcases Clubs.occurs_cases hnode with ⟨-, -, hkey, -⟩ | ⟨-, -, hkey, -⟩ <;>
      rcases Clubs.joinColumn_cases hcolumn with rfl | rfl <;> rw [hkey] <;> decide
  · rw [Clubs.eq_of_equals (Clubs.isName_of_joinKey ha) heq]
  · exact Clubs.representable_of_isName (Clubs.isName_of_joinKey ha)

end Database

end GraphFetch

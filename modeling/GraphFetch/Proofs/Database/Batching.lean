/-
Loading relations for all owners together, or for each owner alone.

A relation takes one statement for all owners: their keys are put into one condition,
and the rows that come back are dealt out.  The plain way is to ask once for each
owner, with its own key only, and to go on from there for each related row alone.
`loadNodesFor` is that loader, and what is proved here is that it attaches the same.

Three things carry the argument.  The rows dealt out to an owner are those that its
own query would have selected, in the same order, because rows can be left out before
or after sorting.  A key asked for is one of the owner's exactly if the owner asks for
it itself; this is where keys that are equal have to have one text, since owners' keys
are told apart by their texts and everything else by what they equal.  And what is
attached never stands in a column that a join reads, so that keys do not change on the
way.
-/
import GraphFetch.Proofs.Database.Runs
import GraphFetch.Proofs.Database.Sorting
import GraphFetch.Proofs.Query.Edits
import Mathlib.Data.List.Forall2

namespace GraphFetch

namespace Database

/-! ### Loading for one owner alone -/

/-- Rows, each of which is loaded on its own. -/
def eachRow (load : Row → Run Row) : List Row → Run (List Row)
  | [] => .done []
  | row :: rest => do
    let row ← load row
    let rest ← eachRow load rest
    return row :: rest

mutual

/-- One owner with one relation attached, fetched for its key alone. -/
def loadNodeFor (database : Database) (modifiers : ModifierTable) (skipsUndefined : Bool)
    (entity : Entity) : RelationNode → Row → Run Row
  | ⟨name, asName, references, children⟩, owner =>
    match entity.relation? name with
    | none => .fail (.unknownRelation entity.name name)
    | some relation =>
      let target := database.registry.entity relation.target
      match modifiedQuery modifiers { target.query with skipsUndefined } references with
      | .error unknown => .fail (.unknownModifier unknown)
      | .ok query => do
        let key := ownerKeys relation.join.ownerColumn [owner]
        let links ← database.links relation.join key
        let wanted := (links.map relatedKeys).getD key
        let found ← database.select (keyedQuery query relation.join wanted)
        let related ← eachRow (loadNodesFor database modifiers skipsUndefined target children) found
        let value := relationValue relation.kind (related.map (project query children))
        return Named.put (asName.getD name) value owner

/-- One owner with relations attached in order, each fetched for its key alone. -/
def loadNodesFor (database : Database) (modifiers : ModifierTable) (skipsUndefined : Bool)
    (entity : Entity) : List RelationNode → Row → Run Row
  | [], owner => .done owner
  | node :: rest, owner => do
    let owner ← loadNodeFor database modifiers skipsUndefined entity node owner
    loadNodesFor database modifiers skipsUndefined entity rest owner

end

theorem eachRow_ok {load : Row → Run Row} {rows loaded : List Row} :
    (eachRow load rows).result = .ok loaded
      ↔ List.Forall₂ (fun row out => (load row).result = .ok out) rows loaded := by
  induction rows generalizing loaded with
  | nil =>
      rw [eachRow, Run.done_ok]
      constructor
      · rintro rfl
        exact .nil
      · intro h
        cases h
        rfl
  | cons row rest ih =>
      simp only [eachRow, Run.bind_ok, Run.pure_ok]
      constructor
      · rintro ⟨out, hrow, outs, hrest, rfl⟩
        exact .cons hrow (ih.mp hrest)
      · intro h
        cases h with
        | cons hrow hrest => exact ⟨_, hrow, _, ih.mpr hrest, rfl⟩

/-- Lists related step by step over a list between them. -/
theorem forall₂_comp {α β γ : Type} {R : α → β → Prop} {S : β → γ → Prop} {T : α → γ → Prop}
    {as : List α} {bs : List β} {cs : List γ} (h₁ : List.Forall₂ R as bs)
    (h₂ : List.Forall₂ S bs cs) (h : ∀ {a b c}, R a b → S b c → T a c) :
    List.Forall₂ T as cs := by
  induction h₁ generalizing cs with
  | nil =>
      cases h₂
      exact .nil
  | cons hab _ ih =>
      cases h₂ with
      | cons hbc hrest => exact .cons (h hab hbc) (ih hrest)

/-- What one relation fetches and attaches for one owner. -/
theorem loadNodeFor_ok {database : Database} {modifiers : ModifierTable} {skipsUndefined : Bool}
    {entity : Entity} {node : RelationNode} {owner : Row} {relation : Relation} {query : Query}
    {found related : List Row} (hrelation : entity.relation? node.name = some relation)
    (hquery : relationQuery database modifiers skipsUndefined relation node = .ok query)
    (hfound : (database.select (keyedQuery query relation.join (database.wantedKeys relation.join
      (ownerKeys relation.join.ownerColumn [owner])))).result = .ok found)
    (hrelated : List.Forall₂ (fun row out =>
      (loadNodesFor database modifiers skipsUndefined (database.registry.entity relation.target)
        node.children row).result = .ok out) found related) :
    (loadNodeFor database modifiers skipsUndefined entity node owner).result
      = .ok (Named.put node.key
          (relationValue relation.kind (related.map (project query node.children))) owner) := by
  obtain ⟨name, asName, references, children⟩ := node
  unfold relationQuery at hquery
  rw [loadNodeFor]
  simp only [hrelation, hquery, Run.bind_ok, links_ok, Run.pure_ok]
  exact ⟨_, rfl, found, hfound, related, eachRow_ok.mpr hrelated, rfl⟩

/-! ### Keys and columns of a load -/

/-- A node of a load, and the entity to whose rows it is attached. -/
inductive Occurs (registry : Registry) (entity : Entity) (nodes : List RelationNode) :
    Entity → RelationNode → Prop
  | root {node : RelationNode} (hnode : node ∈ nodes) : Occurs registry entity nodes entity node
  | child {owner : Entity} {node child : RelationNode} {relation : Relation}
      (hnode : Occurs registry entity nodes owner node)
      (hrelation : owner.relation? node.name = some relation) (hchild : child ∈ node.children) :
      Occurs registry entity nodes (registry.entity relation.target) child

/-- A column of rows that a join of the load reads. -/
def JoinColumn (registry : Registry) (entity : Entity) (nodes : List RelationNode)
    (column : String) : Prop :=
  ∃ owner node relation, Occurs registry entity nodes owner node
    ∧ owner.relation? node.name = some relation
    ∧ (column = relation.join.ownerColumn ∨ column = relation.join.relatedColumn)

/-- A value that a join of the load reads: in an owner's row, in the row of a table that takes
part, or in a pivot row. -/
inductive JoinKey (database : Database) (entity : Entity) (nodes : List RelationNode)
    (rows : List Row) : Json → Prop
  | owner {node : RelationNode} {relation : Relation} {row : Row} {key : Json}
      (hnode : node ∈ nodes) (hrelation : entity.relation? node.name = some relation)
      (hrow : row ∈ rows) (hkey : Named.find? relation.join.ownerColumn row = some key) :
      JoinKey database entity nodes rows key
  | below {owner : Entity} {node child : RelationNode} {relation next : Relation} {row : Row}
      {key : Json} (hnode : Occurs database.registry entity nodes owner node)
      (hrelation : owner.relation? node.name = some relation) (hchild : child ∈ node.children)
      (hnext : (database.registry.entity relation.target).relation? child.name = some next)
      (hrow : row ∈ database.table (database.registry.entity relation.target).table)
      (hkey : Named.find? next.join.ownerColumn row = some key) :
      JoinKey database entity nodes rows key
  | related {owner : Entity} {node : RelationNode} {relation : Relation} {row : Row} {key : Json}
      (hnode : Occurs database.registry entity nodes owner node)
      (hrelation : owner.relation? node.name = some relation)
      (hrow : row ∈ database.table (database.registry.entity relation.target).table)
      (hkey : Named.find? relation.join.relatedColumn row = some key) :
      JoinKey database entity nodes rows key
  | pivot {owner : Entity} {node : RelationNode} {relation : Relation} {through : Through}
      {row : Row} {key : Json} (hnode : Occurs database.registry entity nodes owner node)
      (hrelation : owner.relation? node.name = some relation)
      (hthrough : relation.join.through = some through)
      (hrow : row ∈ database.table through.table)
      (hkey : Named.find? through.ownerColumn row = some key
        ∨ Named.find? through.relatedColumn row = some key) :
      JoinKey database entity nodes rows key

/-- Keys that are equal are one and the same, and so are keys of one text. -/
structure ExactKeys (isKey : Json → Prop) : Prop where
  equal : ∀ {a b}, isKey a → isKey b → a.isNull = false → b.isNull = false →
    Comparison.equals a b = true → a = b
  text : ∀ {a b}, isKey a → isKey b → a.text = b.text → a = b

/-! ### Keys that are equal to one another -/

theorem isNull_of_equals {a b : Json} (h : Comparison.equals a b = true) :
    a.isNull = b.isNull := by
  cases a <;> cases b <;> first | rfl | exact absurd h (by simp [Comparison.equals, Json.same])

namespace ExactKeys

variable {isKey : Json → Prop} (exact : ExactKeys isKey)
include exact

/-- Some key among others equals a key only if that key itself is among them. -/
theorem any_equals {key : Json} (hkey : isKey key) (hnull : key.isNull = false)
    {keys : List Json} (hkeys : ∀ other ∈ keys, isKey other) :
    keys.any (Comparison.equals key) = true
      ↔ key ∈ keys ∧ Comparison.equals key key = true := by
  rw [List.any_eq_true]
  constructor
  · rintro ⟨other, hother, h⟩
    obtain rfl : key = other :=
      exact.equal hkey (hkeys other hother) hnull (isNull_of_equals h ▸ hnull) h
    exact ⟨hother, h⟩
  · rintro ⟨hmem, h⟩
    exact ⟨key, hmem, h⟩

theorem any_equals_left {key : Json} (hkey : isKey key) (hnull : key.isNull = false)
    {keys : List Json} (hkeys : ∀ other ∈ keys, isKey other) :
    keys.any (fun other => Comparison.equals other key) = true
      ↔ key ∈ keys ∧ Comparison.equals key key = true := by
  rw [List.any_eq_true]
  constructor
  · rintro ⟨other, hother, h⟩
    obtain rfl : other = key :=
      exact.equal (hkeys other hother) hkey ((isNull_of_equals h).trans hnull) hnull h
    exact ⟨hother, h⟩
  · rintro ⟨hmem, h⟩
    exact ⟨key, hmem, h⟩

end ExactKeys

/-! ### The keys of owners -/

theorem mem_of_mem_distinctTexts {value : Json} :
    ∀ {values : List Json} {seen : List String},
      value ∈ distinctTexts seen values → value ∈ values := by
  intro values
  induction values with
  | nil => intro seen h; exact h
  | cons first rest ih =>
      intro seen h
      unfold distinctTexts at h
      split at h
      · exact List.mem_cons_of_mem _ (ih h)
      · rcases List.mem_cons.mp h with rfl | h
        · exact List.mem_cons_self
        · exact List.mem_cons_of_mem _ (ih h)

/-- Every text that was not seen is kept once. -/
theorem exists_mem_distinctTexts {value : Json} :
    ∀ {values : List Json} (seen : List String), value ∈ values → value.text ∉ seen →
      ∃ kept ∈ distinctTexts seen values, kept.text = value.text := by
  intro values
  induction values with
  | nil => intro seen h _; exact absurd h (by simp)
  | cons first rest ih =>
      intro seen h hseen
      unfold distinctTexts
      by_cases htext : first.text = value.text
      · rw [if_neg (by simpa [htext] using hseen)]
        exact ⟨first, List.mem_cons_self, htext⟩
      · have hrest : value ∈ rest := by
          rcases List.mem_cons.mp h with rfl | h
          · exact absurd rfl htext
          · exact h
        split
        · exact ih _ hrest hseen
        · obtain ⟨kept, hkept, heq⟩ := ih (first.text :: seen) hrest
            (by simpa [Ne.symm htext] using hseen)
          exact ⟨kept, List.mem_cons_of_mem _ hkept, heq⟩

theorem mem_ownerKeys_elim {column : String} {rows : List Row} {key : Json}
    (h : key ∈ ownerKeys column rows) :
    key.isNull = false ∧ ∃ row ∈ rows, Named.find? column row = some key := by
  have hmem := List.mem_filter.mp (mem_of_mem_distinctTexts h)
  obtain ⟨row, hrow, hfind⟩ := List.mem_filterMap.mp hmem.1
  exact ⟨by simpa using hmem.2, row, hrow, hfind⟩

/-- The key of an owner is among the owners' keys, unless it is null or another one has its text. -/
theorem mem_ownerKeys_of_text {column : String} {rows : List Row} {row : Row} {key : Json}
    (htext : ∀ row ∈ rows, ∀ other, Named.find? column row = some other →
      other.text = key.text → other = key)
    (hrow : row ∈ rows) (hfind : Named.find? column row = some key)
    (hnull : key.isNull = false) : key ∈ ownerKeys column rows := by
  have hmem : key ∈ (rows.filterMap fun row => Named.find? column row).filter
      fun value => !value.isNull :=
    List.mem_filter.mpr ⟨List.mem_filterMap.mpr ⟨row, hrow, hfind⟩, by simp [hnull]⟩
  obtain ⟨kept, hkept, hsame⟩ := exists_mem_distinctTexts [] hmem (by simp)
  obtain ⟨-, other, hother, hotherFind⟩ := mem_ownerKeys_elim hkept
  rwa [htext other hother kept hotherFind hsame] at hkept

theorem mem_ownerKeys {isKey : Json → Prop} (exact : ExactKeys isKey) {column : String}
    {rows : List Row} (hrows : ∀ row ∈ rows, ∀ key, Named.find? column row = some key → isKey key)
    {row : Row} {key : Json} (hrow : row ∈ rows) (hfind : Named.find? column row = some key)
    (hnull : key.isNull = false) : key ∈ ownerKeys column rows :=
  mem_ownerKeys_of_text (fun other hother kept hkept hsame =>
    exact.text (hrows other hother kept hkept) (hrows row hrow key hfind) hsame) hrow hfind hnull

/-- A single owner has its own key, unless that is null. -/
theorem mem_ownerKeys_singleton {column : String} {owner : Row} {key : Json} :
    key ∈ ownerKeys column [owner]
      ↔ Named.find? column owner = some key ∧ key.isNull = false := by
  constructor
  · intro h
    obtain ⟨hnull, row, hrow, hfind⟩ := mem_ownerKeys_elim h
    rw [List.mem_singleton.mp hrow] at hfind
    exact ⟨hfind, hnull⟩
  · rintro ⟨hfind, hnull⟩
    simp [ownerKeys, hfind, hnull, distinctTexts]

/-! ### Links and the keys related by them -/

theorem mem_linksOf {through : Through} {keys : List Json} {pivots : List Row} {link : Link} :
    link ∈ linksOf through keys pivots
      ↔ (∃ pivot ∈ pivots, Named.find? through.ownerColumn pivot = some link.owner
            ∧ Named.find? through.relatedColumn pivot = some link.related)
          ∧ keys.any (fun key => Comparison.equals key link.owner) = true := by
  unfold linksOf
  rw [List.mem_filter, List.mem_filterMap]
  refine and_congr ⟨?_, ?_⟩ Iff.rfl
  · rintro ⟨pivot, hpivot, h⟩
    refine ⟨pivot, hpivot, ?_⟩
    unfold link? at h
    cases howner : Named.find? through.ownerColumn pivot with
    | none => simp [howner] at h
    | some ownerKey =>
        cases hrelated : Named.find? through.relatedColumn pivot with
        | none => simp [howner, hrelated] at h
        | some relatedKey =>
            simp only [howner, hrelated, Option.bind_eq_bind, Option.bind_some, Option.pure_def,
              Option.some.injEq] at h
            subst h
            exact ⟨rfl, rfl⟩
  · rintro ⟨pivot, hpivot, howner, hrelated⟩
    exact ⟨pivot, hpivot, by simp [link?, howner, hrelated]⟩

/-- Adding keys one by one keeps those there are, and adds no others. -/
theorem foldl_addDistinct_mem {keys seen : List Json} (key : Json) :
    (key ∈ keys.foldl addDistinct seen → key ∈ seen ∨ key ∈ keys)
      ∧ (key ∈ seen → key ∈ keys.foldl addDistinct seen) := by
  induction keys generalizing seen with
  | nil => exact ⟨Or.inl, id⟩
  | cons first rest ih =>
      have hadd : (key ∈ addDistinct seen first → key ∈ seen ∨ key = first)
          ∧ (key ∈ seen → key ∈ addDistinct seen first) := by
        unfold addDistinct
        split
        · exact ⟨Or.inl, id⟩
        · exact ⟨by simp, by simp +contextual⟩
      constructor
      · intro h
        rcases ih.1 h with h | h
        · rcases hadd.1 h with h | rfl
          · exact Or.inl h
          · exact Or.inr List.mem_cons_self
        · exact Or.inr (List.mem_cons_of_mem _ h)
      · intro h
        exact ih.2 (hadd.2 h)

/-- A key that is added is there afterwards, or one that equals it. -/
theorem foldl_addDistinct_any {keys : List Json} (seen : List Json) {key : Json} (h : key ∈ keys) :
    key ∈ keys.foldl addDistinct seen
      ∨ (keys.foldl addDistinct seen).any (fun other => Comparison.equals other key) = true := by
  induction keys generalizing seen with
  | nil => exact absurd h (by simp)
  | cons first rest ih =>
      rw [List.foldl_cons]
      rcases List.mem_cons.mp h with rfl | h
      · unfold addDistinct
        split
        · rename_i hany
          obtain ⟨other, hother, heq⟩ := List.any_eq_true.mp hany
          exact Or.inr (List.any_eq_true.mpr
            ⟨other, (foldl_addDistinct_mem other).2 hother, heq⟩)
        · exact Or.inl ((foldl_addDistinct_mem key).2 (by simp))
      · exact ih _ h

/-- Among the keys related by links is exactly every related key. -/
theorem mem_relatedKeys {isKey : Json → Prop} (exact : ExactKeys isKey) {links : List Link}
    (hlinks : ∀ link ∈ links, isKey link.related) {key : Json} (hnull : key.isNull = false) :
    key ∈ relatedKeys links ↔ ∃ link ∈ links, link.related = key := by
  unfold relatedKeys
  constructor
  · intro h
    rcases (foldl_addDistinct_mem _).1 h with h | h
    · exact absurd h (by simp)
    · simpa using h
  · rintro ⟨link, hlink, rfl⟩
    have hmem : link.related ∈ links.map (·.related) := List.mem_map.mpr ⟨link, hlink, rfl⟩
    rcases foldl_addDistinct_any [] hmem with h | h
    · exact h
    · have hkeys : ∀ other ∈ (links.map (·.related)).foldl addDistinct [], isKey other := by
        intro other hother
        rcases (foldl_addDistinct_mem _).1 hother with h | h
        · exact absurd h (by simp)
        · obtain ⟨l, hl, rfl⟩ := List.mem_map.mp h
          exact hlinks l hl
      exact ((exact.any_equals_left (hlinks link hlink) hnull hkeys).mp h).1

/-! ### Dealing out -/

/-- Whatever a join reads in some owners, in related rows and in its pivot table is a key. -/
structure ReadsKeys (database : Database) (isKey : Json → Prop) (join : Join)
    (owners related : List Row) : Prop where
  owner : ∀ row ∈ owners, ∀ key, Named.find? join.ownerColumn row = some key → isKey key
  related : ∀ row ∈ related, ∀ key, Named.find? join.relatedColumn row = some key → isKey key
  pivotOwner : ∀ through, join.through = some through → ∀ row ∈ database.table through.table,
    ∀ key, Named.find? through.ownerColumn row = some key → isKey key
  pivotRelated : ∀ through, join.through = some through → ∀ row ∈ database.table through.table,
    ∀ key, Named.find? through.relatedColumn row = some key → isKey key

/-- A related key that goes with an owner's key: the same, or one that a pivot row links to it. -/
def Partner (database : Database) (join : Join) (key related : Json) : Prop :=
  match join.through with
  | none => key = related
  | some through => ∃ pivot ∈ database.table through.table,
      Named.find? through.ownerColumn pivot = some key
        ∧ Named.find? through.relatedColumn pivot = some related
        ∧ Comparison.equals key key = true

/-- A related key that goes with the key of an owner. -/
def PartnerOf (database : Database) (join : Join) (owner : Row) (related : Json) : Prop :=
  ∃ key, Named.find? join.ownerColumn owner = some key ∧ key.isNull = false
    ∧ Partner database join key related

section DealingOut

variable {database : Database} {isKey : Json → Prop} (exact : ExactKeys isKey) {join : Join}
  {owners related : List Row} (reads : ReadsKeys database isKey join owners related)
include exact reads

/-- The links of some owners are the pivot rows whose owner key is one of theirs. -/
theorem mem_linksOf_owners {through : Through} (hthrough : join.through = some through)
    {link : Link} :
    link ∈ linksOf through (ownerKeys join.ownerColumn owners) (database.table through.table)
      ↔ (∃ pivot ∈ database.table through.table,
            Named.find? through.ownerColumn pivot = some link.owner
              ∧ Named.find? through.relatedColumn pivot = some link.related)
          ∧ Comparison.equals link.owner link.owner = true ∧ link.owner.isNull = false
          ∧ ∃ owner ∈ owners, Named.find? join.ownerColumn owner = some link.owner := by
  have hkeys : ∀ key ∈ ownerKeys join.ownerColumn owners, isKey key := by
    intro key hkey
    obtain ⟨-, row, hrow, hfind⟩ := mem_ownerKeys_elim hkey
    exact reads.owner row hrow key hfind
  rw [mem_linksOf]
  refine and_congr_right ?_
  rintro ⟨pivot, hpivot, howner, -⟩
  have hlink : isKey link.owner := reads.pivotOwner through hthrough pivot hpivot _ howner
  constructor
  · intro hany
    obtain ⟨other, hother, heq⟩ := List.any_eq_true.mp hany
    have hnull : link.owner.isNull = false :=
      (isNull_of_equals heq).symm.trans (mem_ownerKeys_elim hother).1
    obtain ⟨hmem, hself⟩ := (exact.any_equals_left hlink hnull hkeys).mp hany
    exact ⟨hself, hnull, (mem_ownerKeys_elim hmem).2⟩
  · rintro ⟨hself, hnull, owner, hmem, hfind⟩
    exact (exact.any_equals_left hlink hnull hkeys).mpr
      ⟨mem_ownerKeys exact reads.owner hmem hfind hnull, hself⟩

omit exact in
theorem wantedKeys_isKey :
    ∀ key ∈ database.wantedKeys join (ownerKeys join.ownerColumn owners), isKey key := by
  intro key h
  unfold wantedKeys linked at h
  cases hthrough : join.through with
  | none =>
      simp only [hthrough, Option.map_none, Option.getD_none] at h
      obtain ⟨-, owner, howner, hfind⟩ := mem_ownerKeys_elim h
      exact reads.owner owner howner key hfind
  | some through =>
      simp only [hthrough, Option.map_some, Option.getD_some] at h
      rcases (foldl_addDistinct_mem _).1 h with h | h
      · exact absurd h (by simp)
      · obtain ⟨link, hlink, rfl⟩ := List.mem_map.mp h
        obtain ⟨⟨pivot, hpivot, -, hrelated⟩, -⟩ := mem_linksOf.mp hlink
        exact reads.pivotRelated through hthrough pivot hpivot _ hrelated

omit exact in
theorem partnersOf_isKey {owner : Row} (howner : owner ∈ owners) :
    ∀ key ∈ partnersOf join (database.linked join (ownerKeys join.ownerColumn owners)) owner,
      isKey key := by
  intro key h
  unfold partnersOf linked at h
  cases hfind : Named.find? join.ownerColumn owner with
  | none => simp [hfind] at h
  | some ownerKey =>
      cases hthrough : join.through with
      | none =>
          simp only [hfind, hthrough, Option.map_none, partners, List.mem_singleton] at h
          exact h ▸ reads.owner owner howner _ hfind
      | some through =>
          simp only [hfind, hthrough, Option.map_some, partners, List.mem_map,
            List.mem_filter] at h
          obtain ⟨link, ⟨hlink, -⟩, rfl⟩ := h
          obtain ⟨⟨pivot, hpivot, -, hrelated⟩, -⟩ := mem_linksOf.mp hlink
          exact reads.pivotRelated through hthrough pivot hpivot _ hrelated

/-- What is asked for are the keys that go with some owner. -/
theorem mem_wantedKeys {key : Json} (hnull : key.isNull = false) :
    key ∈ database.wantedKeys join (ownerKeys join.ownerColumn owners)
      ↔ ∃ owner ∈ owners, PartnerOf database join owner key := by
  unfold wantedKeys linked PartnerOf Partner
  cases hthrough : join.through with
  | none =>
      constructor
      · intro h
        obtain ⟨hkey, owner, howner, hfind⟩ := mem_ownerKeys_elim h
        exact ⟨owner, howner, key, hfind, hkey, rfl⟩
      · rintro ⟨owner, howner, _, hfind, hkey, rfl⟩
        exact mem_ownerKeys exact reads.owner howner hfind hkey
  | some through =>
      have hlinks : ∀ link ∈ linksOf through (ownerKeys join.ownerColumn owners)
          (database.table through.table), isKey link.related := by
        intro link hlink
        obtain ⟨⟨pivot, hpivot, -, hrelated⟩, -⟩ := mem_linksOf.mp hlink
        exact reads.pivotRelated through hthrough pivot hpivot _ hrelated
      show key ∈ relatedKeys (linksOf through _ _) ↔ _
      rw [mem_relatedKeys exact hlinks hnull]
      constructor
      · rintro ⟨link, hlink, rfl⟩
        obtain ⟨⟨pivot, hpivot, howner, hrelated⟩, hself, hkey, owner, hmem, hfind⟩ :=
          (mem_linksOf_owners exact reads hthrough).mp hlink
        exact ⟨owner, hmem, link.owner, hfind, hkey, pivot, hpivot, howner, hrelated, hself⟩
      · rintro ⟨owner, hmem, ownerKey, hfind, hkey, pivot, hpivot, howner, hrelated, hself⟩
        exact ⟨⟨ownerKey, key⟩, (mem_linksOf_owners exact reads hthrough).mpr
          ⟨⟨pivot, hpivot, howner, hrelated⟩, hself, hkey, owner, hmem, hfind⟩, rfl⟩

/-- What is dealt out to an owner goes by the keys that go with it. -/
theorem mem_partnersOf {owner : Row} (howner : owner ∈ owners) {key : Json}
    (hnull : key.isNull = false) :
    key ∈ partnersOf join (database.linked join (ownerKeys join.ownerColumn owners)) owner
      ↔ PartnerOf database join owner key := by
  unfold partnersOf linked PartnerOf Partner
  cases hfind : Named.find? join.ownerColumn owner with
  | none => simp
  | some ownerKey =>
      cases hthrough : join.through with
      | none =>
          simp only [Option.map_none, partners, List.mem_singleton, Option.some.injEq]
          constructor
          · rintro rfl
            exact ⟨key, rfl, hnull, rfl⟩
          · rintro ⟨_, rfl, -, rfl⟩
            rfl
      | some through =>
          simp only [Option.map_some, partners, List.mem_map, List.mem_filter, beq_iff_eq,
            Option.some.injEq]
          constructor
          · rintro ⟨link, ⟨hlink, htext⟩, rfl⟩
            obtain ⟨⟨pivot, hpivot, hlinkOwner, hrelated⟩, hself, hkey, -⟩ :=
              (mem_linksOf_owners exact reads hthrough).mp hlink
            obtain rfl : link.owner = ownerKey :=
              exact.text (reads.pivotOwner through hthrough pivot hpivot _ hlinkOwner)
                (reads.owner owner howner _ hfind) htext
            exact ⟨link.owner, rfl, hkey, pivot, hpivot, hlinkOwner, hrelated, hself⟩
          · rintro ⟨_, rfl, hkey, pivot, hpivot, hlinkOwner, hrelated, hself⟩
            exact ⟨⟨ownerKey, key⟩, ⟨(mem_linksOf_owners exact reads hthrough).mpr
              ⟨⟨pivot, hpivot, hlinkOwner, hrelated⟩, hself, hkey, owner, howner, hfind⟩, rfl⟩, rfl⟩

/-- **A row that was fetched for all owners is dealt out to one of them exactly if that owner
alone would have asked for it.** -/
theorem dealt_iff_wanted {owner : Row} (howner : owner ∈ owners) {row : Row}
    (hrow : row ∈ related) :
    (hasKey join.relatedColumn
        (partnersOf join (database.linked join (ownerKeys join.ownerColumn owners)) owner) row
      && satisfies row (keyBound join
        (database.wantedKeys join (ownerKeys join.ownerColumn owners))))
      = satisfies row (keyBound join
        (database.wantedKeys join (ownerKeys join.ownerColumn [owner]))) := by
  have alone : ReadsKeys database isKey join [owner] related :=
    { reads with
      owner := fun row hrow => reads.owner row (List.mem_singleton.mp hrow ▸ howner) }
  simp only [satisfies_keyBound, hasKey, columnValue]
  cases hfind : Named.find? join.relatedColumn row with
  | none => simp [Json.isNull]
  | some key =>
      by_cases hnull : key.isNull = true
      · simp [hnull]
      · have hkey : isKey key := reads.related row hrow key hfind
        have hnull : key.isNull = false := by simpa using hnull
        rw [Bool.eq_iff_iff]
        simp only [Option.getD_some, hnull, Bool.not_false, Bool.true_and, Bool.and_eq_true]
        rw [exact.any_equals_left hkey hnull (partnersOf_isKey reads howner),
          exact.any_equals hkey hnull (wantedKeys_isKey reads),
          exact.any_equals hkey hnull (wantedKeys_isKey alone),
          mem_partnersOf exact reads howner hnull, mem_wantedKeys exact reads hnull,
          mem_wantedKeys exact alone hnull]
        constructor
        · rintro ⟨⟨hpartner, hself⟩, -, -⟩
          exact ⟨⟨owner, List.mem_singleton_self owner, hpartner⟩, hself⟩
        · rintro ⟨⟨other, hother, hpartner⟩, hself⟩
          rw [List.mem_singleton.mp hother] at hpartner
          exact ⟨⟨hpartner, hself⟩, ⟨owner, howner, hpartner⟩, hself⟩

end DealingOut

/-! ### The rows of one owner's query -/

/-- A query without a window, sorted by columns whose values are mutually comparable. -/
structure Separable (database : Database) (query : Query) : Prop where
  limit : query.limit = none
  offset : query.offset = none
  sortable : ∀ ordering ∈ query.orderings, Sortable ordering (database.table query.table)

theorem selected_mem {database : Database} {query : Query} (hquery : Separable database query)
    {bound : List Bound} {row : Row} (h : row ∈ database.selected query bound) :
    row ∈ database.table query.table := by
  unfold selected window at h
  rw [hquery.limit, hquery.offset] at h
  exact (filter_sortByAll hquery.sortable (fun _ => true)
    (fun row hrow => (List.mem_filter.mp hrow).1)).2 row h

/-- Rows left out of what a query selected might as well have failed a condition of it. -/
theorem selected_filter {database : Database} {query : Query} (hquery : Separable database query)
    {keep : Row → Bool} {bound : List Bound} {all one : Bound}
    (h : ∀ row ∈ database.table query.table,
      (keep row && satisfies row all) = satisfies row one) :
    (database.selected query (bound ++ [all])).filter keep
      = database.selected query (bound ++ [one]) := by
  unfold selected window
  rw [hquery.limit, hquery.offset]
  simp only [Option.getD_none, List.drop_zero]
  rw [(filter_sortByAll hquery.sortable keep (fun row hrow => (List.mem_filter.mp hrow).1)).1,
    List.filter_filter]
  congr 1
  refine List.filter_congr fun row hrow => ?_
  simp only [List.all_append, List.all_cons, List.all_nil, Bool.and_true]
  rw [← h row hrow, Bool.and_left_comm]

/-! ### Queries of relations -/

theorem modifiedQuery_table {modifiers : ModifierTable} {references : List String} :
    ∀ {query modified : Query}, modifiedQuery modifiers query references = .ok modified →
      modified.table = query.table := by
  induction references with
  | nil =>
      intro query modified h
      cases h
      rfl
  | cons name rest ih =>
      intro query modified h
      unfold modifiedQuery at h
      cases hfind : Named.find? name modifiers with
      | none => simp [hfind] at h
      | some edit =>
          rw [hfind] at h
          rw [ih h, Query.apply_table]

theorem relationQuery_table {database : Database} {modifiers : ModifierTable}
    {skipsUndefined : Bool} {relation : Relation} {node : RelationNode} {query : Query}
    (h : relationQuery database modifiers skipsUndefined relation node = .ok query) :
    query.table = (database.registry.entity relation.target).table :=
  modifiedQuery_table h

/-! ### A whole load -/

/-- What lets the relations of a load be fetched apart: keys are exact, nothing is attached under
the name of a column that a join reads, and the queries are separable. -/
structure LoadsApart (database : Database) (modifiers : ModifierTable) (skipsUndefined : Bool)
    (entity : Entity) (nodes : List RelationNode) (rows : List Row) : Prop where
  exact : ExactKeys (JoinKey database entity nodes rows)
  key_ne : ∀ {owner node column}, Occurs database.registry entity nodes owner node →
    JoinColumn database.registry entity nodes column → node.key ≠ column
  separable : ∀ {owner node relation query}, Occurs database.registry entity nodes owner node →
    owner.relation? node.name = some relation →
    relationQuery database modifiers skipsUndefined relation node = .ok query →
    Separable database query

/-- The values of owners' key columns are keys of the load. -/
def OwnerKeysIn (database : Database) (entity : Entity) (nodes : List RelationNode)
    (rows : List Row) (owner : Entity) (node : RelationNode) (owners : List Row) : Prop :=
  ∀ relation, owner.relation? node.name = some relation → ∀ row ∈ owners, ∀ key,
    Named.find? relation.join.ownerColumn row = some key → JoinKey database entity nodes rows key

/-- A row and what became of it agree on every column that a join reads. -/
def SameJoins (registry : Registry) (entity : Entity) (nodes : List RelationNode)
    (row out : Row) : Prop :=
  ∀ column, JoinColumn registry entity nodes column →
    Named.find? column out = Named.find? column row

section WholeLoad

variable {database : Database} {modifiers : ModifierTable} {skipsUndefined : Bool}
  {entity : Entity} {nodes : List RelationNode} {rows : List Row}
  (apart : LoadsApart database modifiers skipsUndefined entity nodes rows)

/-- What a join of the load reads are keys of it. -/
theorem readsKeys {owner : Entity} {node : RelationNode} {relation : Relation}
    {owners related : List Row} (hnode : Occurs database.registry entity nodes owner node)
    (hrelation : owner.relation? node.name = some relation)
    (howners : OwnerKeysIn database entity nodes rows owner node owners)
    (hrelated : ∀ row ∈ related,
      row ∈ database.table (database.registry.entity relation.target).table) :
    ReadsKeys database (JoinKey database entity nodes rows) relation.join owners related where
  owner := howners relation hrelation
  related := fun row hrow _ hkey => .related hnode hrelation (hrelated row hrow) hkey
  pivotOwner := fun _ hthrough _ hrow _ hkey =>
    .pivot hnode hrelation hthrough hrow (Or.inl hkey)
  pivotRelated := fun _ hthrough _ hrow _ hkey =>
    .pivot hnode hrelation hthrough hrow (Or.inr hkey)

/-- Owners keep their keys while relations are attached to them. -/
theorem OwnerKeysIn.after {owner : Entity} {node : RelationNode} {owners loaded : List Row}
    (hnode : Occurs database.registry entity nodes owner node)
    (howners : OwnerKeysIn database entity nodes rows owner node owners)
    (hsame : List.Forall₂ (SameJoins database.registry entity nodes) owners loaded) :
    OwnerKeysIn database entity nodes rows owner node loaded := by
  intro relation hrelation out hout key hkey
  obtain ⟨row, hrow, hjoins⟩ : ∃ row ∈ owners,
    SameJoins database.registry entity nodes row out := by
    clear howners
    induction hsame with
    | nil => exact absurd hout (by simp)
    | cons h _ ih =>
        rcases List.mem_cons.mp hout with rfl | hout
        · exact ⟨_, List.mem_cons_self, h⟩
        · obtain ⟨row, hrow, hjoins⟩ := ih hout
          exact ⟨row, List.mem_cons_of_mem _ hrow, hjoins⟩
  rw [hjoins _ ⟨owner, node, relation, hnode, hrelation, Or.inl rfl⟩] at hkey
  exact howners relation hrelation row hrow key hkey

/-- Some nodes, loaded for all owners, are for each what they would be alone. -/
def LoadsEach (database : Database) (modifiers : ModifierTable) (skipsUndefined : Bool)
    (entity : Entity) (nodes : List RelationNode) (rows : List Row) (owner : Entity)
    (below : List RelationNode) : Prop :=
  ∀ {owners loaded : List Row},
    (∀ node ∈ below, OwnerKeysIn database entity nodes rows owner node owners) →
    (loadNodes database modifiers skipsUndefined owner below owners).result = .ok loaded →
    List.Forall₂ (fun row out =>
      (loadNodesFor database modifiers skipsUndefined owner below row).result = .ok out
        ∧ SameJoins database.registry entity nodes row out) owners loaded

include apart

/-- One relation, loaded for all owners, is for each what it would be alone, if that is so for
the relations below it. -/
theorem loadNode_each {node : RelationNode} {owner : Entity} {owners loaded : List Row}
    (hnode : Occurs database.registry entity nodes owner node)
    (hchildren : ∀ relation, owner.relation? node.name = some relation →
      LoadsEach database modifiers skipsUndefined entity nodes rows
        (database.registry.entity relation.target) node.children)
    (howners : OwnerKeysIn database entity nodes rows owner node owners)
    (h : (loadNode database modifiers skipsUndefined owner node owners).result = .ok loaded) :
    List.Forall₂ (fun row out =>
      (loadNodeFor database modifiers skipsUndefined owner node row).result = .ok out
        ∧ SameJoins database.registry entity nodes row out) owners loaded := by
  obtain ⟨relation, query, found, related, hrelation, hquery, hfound, hrelated, rfl⟩ :=
    loadNode_ok.mp h
  have hseparable := apart.separable hnode hrelation hquery
  have htable := relationQuery_table hquery
  obtain ⟨bound, hbound, rfl⟩ := select_keyedQuery_ok.mp hfound
  have hbelow := hchildren relation hrelation
    (fun child hchild next hnext row hrow key hkey =>
      .below hnode hrelation hchild hnext (htable ▸ selected_mem hseparable hrow) hkey) hrelated
  have hreads := readsKeys hnode hrelation howners
    (fun row (hrow : row ∈ database.table query.table) => htable ▸ hrow)
  rw [List.forall₂_map_right_iff, List.forall₂_same]
  intro row hrow
  set links := database.linked relation.join (ownerKeys relation.join.ownerColumn owners)
  set dealt := hasKey relation.join.relatedColumn (partnersOf relation.join links row) with hdealt
  -- The rows dealt out to one owner are the same before and after relations are attached to them.
  have hkept : ∀ {a b : Row}, SameJoins database.registry entity nodes a b →
      (dealt a = true ↔ dealt b = true) := by
    intro a b hsame
    have hcolumn := hsame _ ⟨owner, node, relation, hnode, hrelation, Or.inr rfl⟩
    simp only [hdealt, hasKey, hcolumn]
  have hrows := List.rel_filter (fun {a b} hab => hkept hab.2) hbelow
  rw [selected_filter hseparable
    (fun candidate hcandidate => dealt_iff_wanted apart.exact hreads hrow hcandidate)] at hrows
  constructor
  · exact loadNodeFor_ok hrelation hquery (select_keyedQuery_ok.mpr ⟨bound, hbound, rfl⟩)
      (hrows.imp fun _ _ h => h.1)
  · intro column hcolumn
    exact Named.find?_put_of_ne (apart.key_ne hnode hcolumn).symm _ _

/-- Relations, loaded for all owners, are for each what they would be alone. -/
theorem loadNodes_each (below : List RelationNode) {owner : Entity}
    (hbelow : ∀ node ∈ below, Occurs database.registry entity nodes owner node) :
    LoadsEach database modifiers skipsUndefined entity nodes rows owner below := by
  intro owners loaded howners h
  match below with
  | [] =>
      obtain rfl := loadNodes_nil_ok.mp h
      rw [List.forall₂_same]
      intro row _
      exact ⟨by rw [loadNodesFor]; rfl, fun _ _ => rfl⟩
  | ⟨name, asName, references, children⟩ :: rest =>
      obtain ⟨between, hnode, hrest⟩ := loadNodes_cons_ok.mp h
      have hfirst := loadNode_each apart (hbelow _ (by simp))
        (fun relation hrelation => loadNodes_each children
          (fun child hchild => (hbelow _ (by simp)).child hrelation hchild))
        (howners _ (by simp)) hnode
      have hsecond := loadNodes_each rest (fun n hn => hbelow n (by simp [hn]))
        (fun n hn => (howners n (by simp [hn])).after (hbelow n (by simp [hn]))
          (hfirst.imp fun _ _ h => h.2)) hrest
      exact forall₂_comp hfirst hsecond fun h₁ h₂ =>
        ⟨by rw [loadNodesFor, Run.bind_ok]; exact ⟨_, h₁.1, h₂.1⟩,
          fun column hcolumn => (h₂.2 column hcolumn).trans (h₁.2 column hcolumn)⟩

end WholeLoad

end Database

end GraphFetch

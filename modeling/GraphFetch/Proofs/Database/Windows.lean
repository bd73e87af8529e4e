/-
Windows over rows of several owners.

The window of a relation is part of the one statement for all owners, and rows are dealt
out only afterwards.  So it is cut from the rows of all owners together: an owner is left
with those of its rows that fall into it, and which these are depends on whose rows stand
before them.  In the order of the batch they are a stretch of the owner's rows, though, for
what a window leaves out stands before it or behind it.

Where the batch asks for no row that is not one owner's own, as it does for an owner alone,
the window is cut from this owner's rows.
-/
import GraphFetch.Proofs.Database.Joining

namespace GraphFetch

namespace Database

open Comparison (equals)

/-! ### Stretches of a list -/

section Stretches

variable {α : Type} (keep : α → Bool)

/-- Of the first values, those are kept that come first among all that are. -/
theorem filter_take (count : Nat) (values : List α) :
    (values.take count).filter keep
      = (values.filter keep).take ((values.take count).countP keep) := by
  conv_rhs => rw [← List.take_append_drop count values, List.filter_append]
  rw [List.take_append_drop, List.countP_eq_length_filter, List.take_left]

theorem filter_drop (count : Nat) (values : List α) :
    (values.drop count).filter keep
      = (values.filter keep).drop ((values.take count).countP keep) := by
  conv_rhs => rw [← List.take_append_drop count values, List.filter_append]
  rw [List.take_append_drop, List.countP_eq_length_filter, List.drop_left]

end Stretches

/-- **What is kept of a window is a window of what is kept**, without as many rows as are kept in
front of the one and with as many as are kept in it. -/
theorem filter_window (keep : Row → Bool) (offset limit : Option Nat) (rows : List Row) :
    (window offset limit rows).filter keep
      = ((rows.filter keep).drop ((rows.take (offset.getD 0)).countP keep)).take
          ((window offset limit rows).countP keep) := by
  rw [← filter_drop]
  unfold window
  cases limit with
  | none => rw [List.countP_eq_length_filter, List.take_length]
  | some count => exact filter_take keep count _

/-! ### The rows of one owner -/

section Own

variable {database : Database} {join : Join} {query : Query} {bound : List Bound}
  {owners : List Row} {owner : Row}

/-- The rows that a relation's query would ask for on behalf of one owner alone. -/
def own (database : Database) (join : Join) (query : Query) (bound : List Bound)
    (owner : Row) : List Row :=
  sortByAll query.orderings ((database.table query.table).filter fun row =>
    bound.all (satisfies row) && goesWith equals database join owner row)

/-- An owner's rows in a batch are those it would ask for alone, in the same order. -/
theorem filter_asked
    (hsortable : ∀ ordering ∈ query.orderings, Sortable ordering (database.table query.table))
    (howner : owner ∈ owners) :
    (asked database join query bound owners).filter (goesWith equals database join owner)
      = own database join query bound owner := by
  unfold asked own
  rw [(filter_sortByAll hsortable _ (fun row hrow => (List.mem_filter.mp hrow).1)).1,
    List.filter_filter]
  refine congrArg (sortByAll query.orderings) (List.filter_congr fun row _ => ?_)
  by_cases hgoes : goesWith equals database join owner row = true
  · have hany : (owners.any fun other => goesWith equals database join other row) = true :=
      List.any_eq_true.mpr ⟨owner, howner, hgoes⟩
    rw [hgoes, hany, Bool.true_and, Bool.and_comm]
  · rw [Bool.not_eq_true] at hgoes
    rw [hgoes, Bool.false_and, Bool.and_false]

/-- A batch asks for the rows of one owner if all its rows go with that one. -/
theorem asked_eq_own (howner : owner ∈ owners)
    (hsole : ∀ other ∈ owners, ∀ row ∈ database.table query.table,
      goesWith equals database join other row = true →
        goesWith equals database join owner row = true) :
    asked database join query bound owners = own database join query bound owner := by
  unfold asked own
  refine congrArg (sortByAll query.orderings) (List.filter_congr fun row hrow => ?_)
  refine congrArg (bound.all (satisfies row) && ·) ?_
  rw [Bool.eq_iff_iff, List.any_eq_true]
  constructor
  · rintro ⟨other, hother, hgoes⟩
    exact hsole other hother row hrow hgoes
  · intro hgoes
    exact ⟨owner, howner, hgoes⟩

theorem filter_asked_of_sole (howner : owner ∈ owners)
    (hsole : ∀ other ∈ owners, ∀ row ∈ database.table query.table,
      goesWith equals database join other row = true →
        goesWith equals database join owner row = true) :
    (fetched database join query bound owners).filter (goesWith equals database join owner)
      = window query.offset query.limit (own database join query bound owner) := by
  unfold fetched
  rw [asked_eq_own howner hsole, List.filter_eq_self]
  intro row hrow
  exact (Bool.and_eq_true _ _ ▸ (List.mem_filter.mp (mem_sortByAll (mem_window hrow))).2).2

end Own

/-- **Each owner is left with its rows in the window of the batch.**  In the order of the batch
these are its own rows without as many as stand in front of the window, cut to as many as stand in
it.  Where all rows go with one owner, the window is cut from this owner's rows. -/
theorem loadNode_windowed {database : Database} {modifiers : ModifierTable}
    {skipsUndefined : Bool} {entity : Entity} {node : RelationNode} {rows loaded : List Row}
    {relation : Relation} (hdatabase : database.Proper)
    (hrows : ∀ owner ∈ rows, ProperAt relation.join.ownerColumn owner)
    (hrelation : entity.relation? node.name = some relation)
    (hchildren : ∀ child ∈ node.children, child.key ≠ relation.join.relatedColumn)
    (h : (loadNode database modifiers skipsUndefined entity node rows).result = .ok loaded) :
    ∃ query bound load, ∃ share : Row → List Row,
      relationQuery database modifiers skipsUndefined relation node = .ok query
      ∧ bindConditions query.skipsUndefined query.conditions = .ok bound
      ∧ (loadNodes database modifiers skipsUndefined (database.registry.entity relation.target)
          node.children (fetched database relation.join query bound rows)).result
          = .ok ((fetched database relation.join query bound rows).map load)
      ∧ (loaded = rows.map fun owner => Named.put node.key (relationValue relation.kind
          ((share owner).map fun row => project query node.children (load row))) owner)
      ∧ ∀ owner ∈ rows, WrittenAlike database relation.join owner →
        share owner
            = (((asked database relation.join query bound rows).filter
                (goesWith equals database relation.join owner)).drop
              (((asked database relation.join query bound rows).take (query.offset.getD 0)).countP
                (goesWith equals database relation.join owner))).take
              ((window query.offset query.limit
                (asked database relation.join query bound rows)).countP
                  (goesWith equals database relation.join owner))
          ∧ ((∀ ordering ∈ query.orderings, Sortable ordering (database.table query.table)) →
            (asked database relation.join query bound rows).filter
                (goesWith equals database relation.join owner)
              = own database relation.join query bound owner)
          ∧ ((∀ other ∈ rows, ∀ row ∈ database.table query.table,
              goesWith equals database relation.join other row = true →
                goesWith equals database relation.join owner row = true) →
            share owner = window query.offset query.limit
              (own database relation.join query bound owner)) := by
  obtain ⟨query, bound, load, hquery, hbound, hload, hloaded⟩ :=
    loadNode_dealt hdatabase hrows hrelation hchildren h
  refine ⟨query, bound, load, _, hquery, hbound, hload, hloaded, fun owner howner halike => ?_⟩
  have hgoes : goesWith sameText database relation.join owner
      = goesWith equals database relation.join owner :=
    funext (goesWith_sameText hdatabase (hrows owner howner) halike)
  rw [hgoes]
  refine ⟨filter_window _ _ _ _, fun hsortable => filter_asked hsortable howner, fun hsole => ?_⟩
  exact filter_asked_of_sole howner hsole

/-! ### Authors and a page of their posts -/

namespace Pages

def relation : Relation := ⟨"posts", .many, 1, ⟨"id", "author_id", none⟩⟩

def author : Entity :=
  { id := 0, name := "Author", table := "authors", columns := [], virtuals := [], filters := [],
    customSingle := none, customList := none, relations := [("posts", relation)] }

def post : Entity :=
  { id := 1, name := "Post", table := "posts", columns := [], virtuals := [], filters := [],
    customSingle := none, customList := none, relations := [] }

def ada : Row := [("id", .str "ada")]

def ben : Row := [("id", .str "ben")]

def written (id writer : String) : Row := [("id", .str id), ("author_id", .str writer)]

def posts : List Row :=
  [written "p4" "ada", written "p3" "ben", written "p2" "ben", written "p1" "ada"]

def database : Database := ⟨⟨[author, post]⟩, [("authors", [ada, ben]), ("posts", posts)]⟩

/-- A page of posts in the order of their keys. -/
def page (offset limit : Nat) : Edit :=
  .all [.orderBy ⟨"id", .ascending⟩, .offset offset, .limit limit]

def node : RelationNode := ⟨"posts", none, ["page"], []⟩

/-- Authors with a page of posts. -/
def loading (offset limit : Nat) (authors : List Row) : Run (List Row) :=
  loadNode database [("page", page offset limit)] false author node authors

theorem proper_database : database.Proper := by
  simp only [Database.Proper, ProperRow, database, ada, ben, posts, written, Json.proper_str,
    List.forall_mem_cons, List.not_mem_nil, false_implies, implies_true, and_true]

end Pages

/-- The second and the third post make up the page, and both are Ben's. -/
theorem loadNode_windowed_page :
    ∃ share : Row → List Row,
      (Pages.loading 1 2 [Pages.ada, Pages.ben]).result = .ok ([Pages.ada, Pages.ben].map
        fun owner => Named.put "posts" (.arr ((share owner).map Json.obj)) owner)
      ∧ share Pages.ada
        = ([Pages.written "p1" "ada", Pages.written "p4" "ada"].drop 1).take 0
      ∧ share Pages.ben
        = ([Pages.written "p2" "ben", Pages.written "p3" "ben"].drop 0).take 2 := by
  have hloaded : (Pages.loading 1 2 [Pages.ada, Pages.ben]).result
      = .ok [Named.put "posts" (.arr []) Pages.ada,
        Named.put "posts" (.arr [.obj (Pages.written "p2" "ben"),
          .obj (Pages.written "p3" "ben")]) Pages.ben] := rfl
  have hauthors : ∀ owner ∈ Pages.database.table "authors", ProperAt "id" owner :=
    fun owner howner value hvalue => (Pages.proper_database.row howner).find? hvalue
  obtain ⟨query, bound, load, share, hquery, hbound, -, -, hshare⟩ :=
    loadNode_windowed Pages.proper_database hauthors
      (show Pages.author.relation? "posts" = some Pages.relation from rfl)
      (fun child hchild => absurd hchild List.not_mem_nil) hloaded
  cases hquery
  cases hbound
  have halike : ∀ owner, WrittenAlike Pages.database Pages.relation.join owner := nofun
  have hada := (hshare Pages.ada (by simp) (halike _)).1
  have hben := (hshare Pages.ben (by simp) (halike _)).1
  refine ⟨share, ?_, hada, hben⟩
  rw [List.map_cons, List.map_cons, List.map_nil, hada, hben]
  exact hloaded

/-- **Which posts an author gets of a page depends on the other authors**: Ben gets none if Ada is
asked about too, although the page of his own posts is not empty. -/
theorem loadNode_not_windowed_alone :
    (Pages.loading 0 1 [Pages.ada, Pages.ben]).result
        = .ok [Named.put "posts" (.arr [.obj (Pages.written "p1" "ada")]) Pages.ada,
          Named.put "posts" (.arr []) Pages.ben]
      ∧ (Pages.loading 0 1 [Pages.ben]).result
        = .ok [Named.put "posts" (.arr [.obj (Pages.written "p2" "ben")]) Pages.ben]
      ∧ window (some 0) (some 1) (own Pages.database Pages.relation.join
          (Pages.post.query.apply (Pages.page 0 1)) [] Pages.ben)
        = [Pages.written "p2" "ben"] :=
  ⟨rfl, rfl, rfl⟩

end Database

end GraphFetch

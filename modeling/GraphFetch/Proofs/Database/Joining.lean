/-
Which related rows an owner gets.

A row goes with an owner if their keys are equal, or if some pivot row holds values that
equal the two; no null is a key.  `goesWith` says so of one owner and one row, without any
batch.  A relation is loaded for all owners together, by keys that were told apart by their
texts, and over a pivot table by two look-ups of different kinds: its rows are found by
values that equal some owner's key, and afterwards by the text of the owner's own.

So the rows that the batch asks for are those that go with some owner, but what an owner
gets over a pivot table is less: only what pivot rows link to its key as it is written
there.  Where one number is written in two ways, rows that were found for an owner never
reach it.  For direct joins there is no such difference.
-/
import GraphFetch.Proofs.Database.Batching
import GraphFetch.Proofs.Json.Equality
import GraphFetch.Proofs.Outcome

namespace GraphFetch

/-- Whether all values of a row are ones that can be read. -/
def ProperRow (row : Row) : Prop := ∀ member ∈ row, member.2.Proper

theorem ProperRow.find? {row : Row} (h : ProperRow row) {column : String} {value : Json}
    (hvalue : Named.find? column row = some value) : value.Proper :=
  h _ (Named.mem_of_find? hvalue)

/-- Whether the value that a row has in a column, if any, is one that can be read. -/
def ProperAt (column : String) (row : Row) : Prop :=
  ∀ value, Named.find? column row = some value → value.Proper

namespace Database

open Comparison (equals equals_self equals_symm equals_trans)

/-! ### Keys that go together -/

/-- Whether two values have one text. -/
def sameText (value other : Json) : Bool := value.text == other.text

/-- Whether a pivot row holds a value that is found by an owner's key and one that equals a related
key. -/
def pivotMeets (finds : Json → Json → Bool) (through : Through) (key related : Json)
    (pivot : Row) : Bool :=
  match Named.find? through.ownerColumn pivot, Named.find? through.relatedColumn pivot with
  | some held, some value => finds key held && equals value related
  | _, _ => false

/-- Whether an owner's key and a related key go together, given how pivot rows are found by the
owner's key. -/
def keysMeet (finds : Json → Json → Bool) (database : Database) (join : Join)
    (key related : Json) : Bool :=
  match join.through with
  | none => equals key related
  | some through => (database.table through.table).any (pivotMeets finds through key related)

/-- Whether a row goes with an owner. -/
def goesWith (finds : Json → Json → Bool) (database : Database) (join : Join)
    (owner row : Row) : Bool :=
  match Named.find? join.ownerColumn owner, Named.find? join.relatedColumn row with
  | some key, some related =>
    !key.isNull && !related.isNull && keysMeet finds database join key related
  | _, _ => false

/-- Whether all values of the tables are ones that can be read. -/
def Proper (database : Database) : Prop :=
  ∀ table ∈ database.tables, ∀ row ∈ table.2, ProperRow row

/-- Whether pivot rows hold an owner's key in no other way than the owner's row does. -/
def WrittenAlike (database : Database) (join : Join) (owner : Row) : Prop :=
  ∀ through, join.through = some through → ∀ pivot ∈ database.table through.table,
    ∀ key held, Named.find? join.ownerColumn owner = some key →
      Named.find? through.ownerColumn pivot = some held → equals key held = true →
        key.text = held.text

theorem Proper.row {database : Database} (h : database.Proper) {name : String} {row : Row}
    (hrow : row ∈ database.table name) : ProperRow row := by
  unfold table at hrow
  cases hfind : Named.find? name database.tables with
  | none => simp [hfind] at hrow
  | some rows =>
      rw [hfind] at hrow
      exact h _ (Named.mem_of_find? hfind) row hrow

theorem sameText_iff {value other : Json} : sameText value other = true ↔ value.text = other.text :=
  beq_iff_eq

section Keys

variable {finds : Json → Json → Bool} {database : Database} {join : Join} {owner row : Row}

theorem pivotMeets_iff {through : Through} {key related : Json} {pivot : Row} :
    pivotMeets finds through key related pivot = true
      ↔ ∃ held value, Named.find? through.ownerColumn pivot = some held
          ∧ Named.find? through.relatedColumn pivot = some value
          ∧ finds key held = true ∧ equals value related = true := by
  unfold pivotMeets
  cases Named.find? through.ownerColumn pivot <;>
    cases Named.find? through.relatedColumn pivot <;> simp

theorem goesWith_iff :
    goesWith finds database join owner row = true
      ↔ ∃ key related, Named.find? join.ownerColumn owner = some key ∧ key.isNull = false
          ∧ Named.find? join.relatedColumn row = some related ∧ related.isNull = false
          ∧ keysMeet finds database join key related = true := by
  unfold goesWith
  cases Named.find? join.ownerColumn owner <;>
    cases Named.find? join.relatedColumn row <;> simp [and_assoc]

theorem keysMeet_through_iff {through : Through} (hthrough : join.through = some through)
    {key related : Json} :
    keysMeet finds database join key related = true
      ↔ ∃ pivot ∈ database.table through.table, ∃ held value,
          Named.find? through.ownerColumn pivot = some held
            ∧ Named.find? through.relatedColumn pivot = some value
            ∧ finds key held = true ∧ equals value related = true := by
  simp only [keysMeet, hthrough, List.any_eq_true, pivotMeets_iff]

/-- Over a pivot table, a row goes with an owner by some row of it. -/
theorem goesWith_through_iff {through : Through} (hthrough : join.through = some through) :
    goesWith finds database join owner row = true
      ↔ ∃ key related, Named.find? join.ownerColumn owner = some key ∧ key.isNull = false
          ∧ Named.find? join.relatedColumn row = some related ∧ related.isNull = false
          ∧ ∃ pivot ∈ database.table through.table, ∃ held value,
              Named.find? through.ownerColumn pivot = some held
                ∧ Named.find? through.relatedColumn pivot = some value
                ∧ finds key held = true ∧ equals value related = true := by
  simp only [goesWith_iff, keysMeet_through_iff hthrough]

/-- Whether a pivot row links the key of an owner to the key of a row, given how pivot rows are
found by the owner's key. -/
def LinkedBy (finds : Json → Json → Bool) (database : Database) (join : Join) (through : Through)
    (owner row : Row) : Prop :=
  ∃ key related, Named.find? join.ownerColumn owner = some key ∧ key.isNull = false
    ∧ Named.find? join.relatedColumn row = some related
    ∧ ∃ pivot ∈ database.table through.table, ∃ held value,
        Named.find? through.ownerColumn pivot = some held
          ∧ Named.find? through.relatedColumn pivot = some value
          ∧ finds key held = true ∧ equals value related = true

theorem goesWith_iff_linkedBy {through : Through} (hthrough : join.through = some through)
    (hkeyed : ∀ related, Named.find? join.relatedColumn row = some related →
      related.isNull = false) :
    goesWith finds database join owner row = true
      ↔ LinkedBy finds database join through owner row := by
  rw [goesWith_through_iff hthrough]
  refine exists_congr fun key => exists_congr fun related => and_congr_right fun _ => ?_
  refine and_congr_right fun _ => and_congr_right fun hrelated => ?_
  rw [and_iff_right (hkeyed related hrelated)]

/-- What has the text of a key equals it. -/
theorem equals_of_sameText {key held : Json} (hkey : key.Proper) (hheld : held.Proper)
    (h : sameText key held = true) : equals key held = true := by
  obtain rfl : key = held :=
    Json.text_injective hkey.representable hheld.representable (sameText_iff.mp h)
  exact equals_self hkey.unambiguous

/-- **Where keys are written alike, it makes no difference how pivot rows are found.** -/
theorem goesWith_sameText (hdatabase : database.Proper) (howner : ProperAt join.ownerColumn owner)
    (halike : WrittenAlike database join owner) (row : Row) :
    goesWith sameText database join owner row = goesWith equals database join owner row := by
  cases hthrough : join.through with
  | none => simp only [goesWith, keysMeet, hthrough]
  | some through =>
      rw [Bool.eq_iff_iff, goesWith_through_iff hthrough, goesWith_through_iff hthrough]
      refine exists_congr fun key => exists_congr fun related => and_congr_right fun hkey => ?_
      refine and_congr_right fun _ => and_congr_right fun _ => and_congr_right fun _ => ?_
      refine exists_congr fun pivot => and_congr_right fun hpivot => ?_
      refine exists_congr fun held => exists_congr fun value => and_congr_right fun hheld => ?_
      refine and_congr_right fun _ => and_congr_left fun _ => ⟨?_, ?_⟩
      · exact equals_of_sameText (howner key hkey) ((hdatabase.row hpivot).find? hheld)
      · intro hequal
        exact sameText_iff.mpr (halike through hthrough pivot hpivot key held hkey hheld hequal)

end Keys

/-! ### What a batch asks for and deals out -/

section Batch

variable {database : Database} {join : Join} {owners : List Row} {owner row : Row}

theorem mem_ownerKeys_of_proper (howners : ∀ owner ∈ owners, ProperAt join.ownerColumn owner)
    (howner : owner ∈ owners) {key : Json} (hkey : Named.find? join.ownerColumn owner = some key)
    (hnull : key.isNull = false) : key ∈ ownerKeys join.ownerColumn owners :=
  mem_ownerKeys_of_text (fun other hother _ hfind => Json.text_injective
    (howners other hother _ hfind).representable (howners owner howner key hkey).representable)
    howner hkey hnull

/-- A link of some owners is a pivot row with a value that equals the key of one of them. -/
theorem mem_linksOf_ownerKeys {through : Through}
    (howners : ∀ owner ∈ owners, ProperAt join.ownerColumn owner) {link : Link} :
    link ∈ linksOf through (ownerKeys join.ownerColumn owners) (database.table through.table)
      ↔ (∃ pivot ∈ database.table through.table,
            Named.find? through.ownerColumn pivot = some link.owner
              ∧ Named.find? through.relatedColumn pivot = some link.related)
          ∧ ∃ owner ∈ owners, ∃ key, Named.find? join.ownerColumn owner = some key
              ∧ key.isNull = false ∧ equals key link.owner = true := by
  rw [mem_linksOf, List.any_eq_true]
  refine and_congr_right fun _ => ⟨?_, ?_⟩
  · rintro ⟨key, hkey, hequal⟩
    obtain ⟨hnull, owner, howner, hfind⟩ := mem_ownerKeys_elim hkey
    exact ⟨owner, howner, key, hfind, hnull, hequal⟩
  · rintro ⟨owner, howner, key, hfind, hnull, hequal⟩
    exact ⟨key, mem_ownerKeys_of_proper howners howner hfind hnull, hequal⟩

/-- A key is asked for over a pivot table if some link is to one that it equals. -/
theorem any_relatedKeys {links : List Link} (hlinks : ∀ link ∈ links, link.related.Proper)
    {related : Json} (hrelated : related.Proper) :
    (relatedKeys links).any (equals related) = true
      ↔ ∃ link ∈ links, equals link.related related = true := by
  have hmem : ∀ {value}, value ∈ relatedKeys links → ∃ link ∈ links, link.related = value := by
    intro value hvalue
    rcases (foldl_addDistinct_mem _).1 hvalue with h | h
    · exact absurd h (by simp)
    · exact List.mem_map.mp h
  rw [List.any_eq_true]
  constructor
  · rintro ⟨value, hvalue, hequal⟩
    obtain ⟨link, hlink, rfl⟩ := hmem hvalue
    exact ⟨link, hlink, equals_symm hrelated.unambiguous (hlinks link hlink).unambiguous hequal⟩
  · rintro ⟨link, hlink, hequal⟩
    have hproper := hlinks link hlink
    have hback : equals related link.related = true :=
      equals_symm hproper.unambiguous hrelated.unambiguous hequal
    -- The key itself is asked for, or one that equals it and was there before.
    rcases foldl_addDistinct_any [] (List.mem_map.mpr ⟨link, hlink, rfl⟩) with h | h
    · exact ⟨link.related, h, hback⟩
    · obtain ⟨kept, hkept, hsame⟩ := List.any_eq_true.mp h
      obtain ⟨other, hother, rfl⟩ := hmem hkept
      exact ⟨other.related, hkept, equals_trans hback
        (equals_symm (hlinks other hother).unambiguous hproper.unambiguous hsame)⟩

variable (hdatabase : database.Proper) (howners : ∀ owner ∈ owners, ProperAt join.ownerColumn owner)
include hdatabase howners

/-- A key is asked for if it and some owner's key go together. -/
theorem any_wantedKeys {related : Json} (hrelated : related.Proper) :
    (database.wantedKeys join (ownerKeys join.ownerColumn owners)).any (equals related) = true
      ↔ ∃ owner ∈ owners, ∃ key, Named.find? join.ownerColumn owner = some key
          ∧ key.isNull = false ∧ keysMeet equals database join key related = true := by
  unfold wantedKeys linked
  cases hthrough : join.through with
  | none =>
      simp only [Option.map_none, Option.getD_none, List.any_eq_true, keysMeet, hthrough]
      constructor
      · rintro ⟨key, hkey, hequal⟩
        obtain ⟨hnull, owner, howner, hfind⟩ := mem_ownerKeys_elim hkey
        exact ⟨owner, howner, key, hfind, hnull, equals_symm hrelated.unambiguous
          (howners owner howner key hfind).unambiguous hequal⟩
      · rintro ⟨owner, howner, key, hfind, hnull, hequal⟩
        exact ⟨key, mem_ownerKeys_of_proper howners howner hfind hnull, equals_symm
          (howners owner howner key hfind).unambiguous hrelated.unambiguous hequal⟩
  | some through =>
      simp only [Option.map_some, Option.getD_some, keysMeet_through_iff hthrough]
      have hlinks : ∀ link ∈ linksOf through (ownerKeys join.ownerColumn owners)
          (database.table through.table), link.related.Proper := by
        intro link hlink
        obtain ⟨⟨pivot, hpivot, -, hlinked⟩, -⟩ := (mem_linksOf_ownerKeys howners).mp hlink
        exact (hdatabase.row hpivot).find? hlinked
      rw [any_relatedKeys hlinks hrelated]
      constructor
      · rintro ⟨link, hlink, hequal⟩
        obtain ⟨⟨pivot, hpivot, hheld, hlinked⟩, owner, howner, key, hfind, hnull, hfinds⟩ :=
          (mem_linksOf_ownerKeys howners).mp hlink
        exact ⟨owner, howner, key, hfind, hnull, pivot, hpivot, link.owner, link.related, hheld,
          hlinked, hfinds, hequal⟩
      · rintro ⟨owner, howner, key, hfind, hnull, pivot, hpivot, held, value, hheld, hlinked,
          hfinds, hequal⟩
        refine ⟨⟨held, value⟩, (mem_linksOf_ownerKeys howners).mpr ⟨?_, ?_⟩, hequal⟩
        · exact ⟨pivot, hpivot, hheld, hlinked⟩
        · exact ⟨owner, howner, key, hfind, hnull, hfinds⟩

/-- **The rows that a batch asks for are those that go with some owner.** -/
theorem satisfies_wantedKeys (hrow : ProperRow row) :
    satisfies row (keyBound join (database.wantedKeys join (ownerKeys join.ownerColumn owners)))
      = owners.any fun owner => goesWith equals database join owner row := by
  rw [satisfies_keyBound, Bool.eq_iff_iff, Bool.and_eq_true]
  unfold columnValue
  cases hrelated : Named.find? join.relatedColumn row with
  | none => simp [Json.isNull, goesWith, hrelated]
  | some related =>
      rw [Option.getD_some, any_wantedKeys hdatabase howners (hrow.find? hrelated),
        List.any_eq_true, Bool.not_eq_true']
      constructor
      · rintro ⟨hnull, owner, howner, key, hfind, hkeyNull, hmeet⟩
        exact ⟨owner, howner,
          goesWith_iff.mpr ⟨key, related, hfind, hkeyNull, hrelated, hnull, hmeet⟩⟩
      · rintro ⟨owner, howner, hgoes⟩
        obtain ⟨key, other, hfind, hkeyNull, hother, hnull, hmeet⟩ := goesWith_iff.mp hgoes
        obtain rfl : related = other := Option.some.inj (hrelated.symm.trans hother)
        exact ⟨hnull, owner, howner, key, hfind, hkeyNull, hmeet⟩

/-- A key is among what an owner's links relate it to if its own key, as it is written, and that
one go together. -/
theorem any_partnersOf (howner : owner ∈ owners) {key related : Json}
    (hfind : Named.find? join.ownerColumn owner = some key) (hrelated : related.isNull = false) :
    (partnersOf join (database.linked join (ownerKeys join.ownerColumn owners)) owner).any
        (fun partner => equals partner related) = true
      ↔ key.isNull = false ∧ keysMeet sameText database join key related = true := by
  have hproper : key.Proper := howners owner howner key hfind
  unfold partnersOf linked
  rw [hfind]
  cases hthrough : join.through with
  | none =>
      simp only [Option.map_none, partners, List.any_cons, List.any_nil, Bool.or_false, keysMeet,
        hthrough]
      refine ⟨fun hequal => ⟨?_, hequal⟩, And.right⟩
      rw [isNull_of_equals hequal, hrelated]
  | some through =>
      simp only [Option.map_some, partners, List.any_map, List.any_eq_true, List.mem_filter,
        Function.comp_apply, keysMeet_through_iff hthrough]
      constructor
      · rintro ⟨link, ⟨hlink, htext⟩, hequal⟩
        obtain ⟨⟨pivot, hpivot, hheld, hlinked⟩, other, hother, otherKey, -, hotherNull, hfinds⟩ :=
          (mem_linksOf_ownerKeys howners).mp hlink
        have hsame : sameText key link.owner = true :=
          sameText_iff.mpr (beq_iff_eq.mp htext).symm
        have hequalKey : equals key link.owner = true :=
          equals_of_sameText hproper ((hdatabase.row hpivot).find? hheld) hsame
        refine ⟨?_, pivot, hpivot, link.owner, link.related, hheld, hlinked, hsame, hequal⟩
        rw [isNull_of_equals hequalKey, ← isNull_of_equals hfinds, hotherNull]
      · rintro ⟨hnull, pivot, hpivot, held, value, hheld, hlinked, hsame, hequal⟩
        have hequalKey : equals key held = true :=
          equals_of_sameText hproper ((hdatabase.row hpivot).find? hheld) hsame
        refine ⟨⟨held, value⟩, ⟨(mem_linksOf_ownerKeys howners).mpr ?_, ?_⟩, hequal⟩
        · exact ⟨⟨pivot, hpivot, hheld, hlinked⟩, owner, howner, key, hfind, hnull, hequalKey⟩
        · exact beq_iff_eq.mpr (sameText_iff.mp hsame).symm

/-- **An owner gets the rows that go with its key as it is written**, among rows with keys. -/
theorem hasKey_partnersOf (howner : owner ∈ owners)
    (hkeyed : ∀ related, Named.find? join.relatedColumn row = some related →
      related.isNull = false) :
    hasKey join.relatedColumn
        (partnersOf join (database.linked join (ownerKeys join.ownerColumn owners)) owner) row
      = goesWith sameText database join owner row := by
  unfold hasKey
  cases hrelated : Named.find? join.relatedColumn row with
  | none => simp [goesWith, hrelated]
  | some related =>
      have hnull : related.isNull = false := hkeyed related hrelated
      cases hfind : Named.find? join.ownerColumn owner with
      | none => simp [partnersOf, goesWith, hfind]
      | some key =>
          rw [Bool.eq_iff_iff, any_partnersOf hdatabase howners howner hfind hnull]
          simp [goesWith, hfind, hrelated, hnull]

end Batch

/-! ### What a relation attaches -/

/-- The rows that a relation's query asks for on behalf of its owners, in its order. -/
def asked (database : Database) (join : Join) (query : Query) (bound : List Bound)
    (owners : List Row) : List Row :=
  sortByAll query.orderings ((database.table query.table).filter fun row =>
    bound.all (satisfies row) && owners.any fun owner => goesWith equals database join owner row)

/-- The rows that a relation's query fetches for its owners. -/
def fetched (database : Database) (join : Join) (query : Query) (bound : List Bound)
    (owners : List Row) : List Row :=
  window query.offset query.limit (asked database join query bound owners)

theorem selected_keyBound {database : Database} (hdatabase : database.Proper) {join : Join}
    {query : Query} {bound : List Bound} {owners : List Row}
    (howners : ∀ owner ∈ owners, ProperAt join.ownerColumn owner) :
    database.selected query (bound ++ [keyBound join
        (database.wantedKeys join (ownerKeys join.ownerColumn owners))])
      = fetched database join query bound owners := by
  unfold selected fetched asked
  refine congrArg (fun rows => window query.offset query.limit (sortByAll query.orderings rows)) ?_
  refine List.filter_congr fun row hrow => ?_
  simp only [List.all_append, List.all_cons, List.all_nil, Bool.and_true]
  rw [satisfies_wantedKeys hdatabase howners (hdatabase.row hrow)]

theorem mem_window {offset limit : Option Nat} {rows : List Row} {row : Row}
    (h : row ∈ window offset limit rows) : row ∈ rows := by
  unfold window at h
  cases limit with
  | none => exact List.mem_of_mem_drop h
  | some count => exact List.mem_of_mem_drop (List.mem_of_mem_take h)

/-- Whatever is fetched has a key. -/
theorem isNull_of_mem_fetched {database : Database} {join : Join} {query : Query}
    {bound : List Bound} {owners : List Row} {row : Row}
    (h : row ∈ fetched database join query bound owners) (related : Json)
    (hrelated : Named.find? join.relatedColumn row = some related) : related.isNull = false := by
  have hrow := (List.mem_filter.mp (mem_sortByAll (mem_window h))).2
  obtain ⟨owner, -, hgoes⟩ := List.any_eq_true.mp (Bool.and_eq_true _ _ ▸ hrow).2
  obtain ⟨-, other, -, -, hother, hnull, -⟩ := goesWith_iff.mp hgoes
  rw [← Option.some.inj (hother.symm.trans hrelated), hnull]

section Attached

variable {database : Database} {modifiers : ModifierTable} {skipsUndefined : Bool}
  {entity : Entity} {node : RelationNode} {rows loaded : List Row} {relation : Relation}
  (hdatabase : database.Proper) (hrows : ∀ owner ∈ rows, ProperAt relation.join.ownerColumn owner)
  (hrelation : entity.relation? node.name = some relation)
  (hchildren : ∀ child ∈ node.children, child.key ≠ relation.join.relatedColumn)
  (h : (loadNode database modifiers skipsUndefined entity node rows).result = .ok loaded)
include hdatabase hrows hrelation hchildren h

/-- **Of the rows fetched for all owners, each gets those that go with its key as it is written**,
with the relations below loaded into them. -/
theorem loadNode_dealt :
    ∃ query bound load,
      relationQuery database modifiers skipsUndefined relation node = .ok query
      ∧ bindConditions query.skipsUndefined query.conditions = .ok bound
      ∧ (loadNodes database modifiers skipsUndefined (database.registry.entity relation.target)
          node.children (fetched database relation.join query bound rows)).result
          = .ok ((fetched database relation.join query bound rows).map load)
      ∧ loaded = rows.map fun owner => Named.put node.key (relationValue relation.kind
          (((fetched database relation.join query bound rows).filter
            (goesWith sameText database relation.join owner)).map
              fun row => project query node.children (load row))) owner := by
  obtain ⟨other, query, found, related, hother, hquery, hfound, hrelated, rfl⟩ := loadNode_ok.mp h
  obtain rfl : relation = other := Option.some.inj (hrelation.symm.trans hother)
  obtain ⟨bound, hbound, hselected⟩ := select_keyedQuery_ok.mp hfound
  rw [selected_keyBound hdatabase hrows] at hselected
  subst hselected
  obtain ⟨load, rfl, hload⟩ := loadNodes_same hrelated
  refine ⟨query, bound, load, hquery, hbound, hrelated, List.map_congr_left fun owner howner => ?_⟩
  unfold attach
  refine congrArg (fun value => Named.put node.key (relationValue relation.kind value) owner) ?_
  rw [List.filter_map, List.map_map]
  refine congrArg (List.map fun row => project query node.children (load row)) ?_
  refine List.filter_congr fun row hrow => ?_
  have hsame : Named.find? relation.join.relatedColumn (load row)
      = Named.find? relation.join.relatedColumn row := by
    refine (hload row).2 _ fun hmem => ?_
    obtain ⟨child, hchild, hkey⟩ := List.mem_map.mp hmem
    exact hchildren child hchild hkey
  rw [← hasKey_partnersOf hdatabase hrows howner (isNull_of_mem_fetched hrow)]
  simp only [Function.comp_apply, hasKey, hsame]

/-- **Over a pivot table an owner gets the fetched rows that some pivot row links to its key as it
is written there.**  These go with it, and they are all that do if pivot rows hold its key in no
other way. -/
theorem loadNode_through {through : Through} (hthrough : relation.join.through = some through) :
    ∃ query bound load, ∃ attached : Row → Row → Bool,
      relationQuery database modifiers skipsUndefined relation node = .ok query
      ∧ bindConditions query.skipsUndefined query.conditions = .ok bound
      ∧ (loadNodes database modifiers skipsUndefined (database.registry.entity relation.target)
          node.children (fetched database relation.join query bound rows)).result
          = .ok ((fetched database relation.join query bound rows).map load)
      ∧ (loaded = rows.map fun owner => Named.put node.key (relationValue relation.kind
          (((fetched database relation.join query bound rows).filter (attached owner)).map
            fun row => project query node.children (load row))) owner)
      ∧ ∀ owner ∈ rows, ∀ row ∈ fetched database relation.join query bound rows,
          (attached owner row = true
            ↔ LinkedBy sameText database relation.join through owner row)
          ∧ (WrittenAlike database relation.join owner →
            (attached owner row = true
              ↔ LinkedBy equals database relation.join through owner row)) := by
  obtain ⟨query, bound, load, hquery, hbound, hload, hloaded⟩ :=
    loadNode_dealt hdatabase hrows hrelation hchildren h
  refine ⟨query, bound, load, goesWith sameText database relation.join, hquery, hbound, hload,
    hloaded, fun owner howner row hrow => ?_⟩
  have hkeyed := isNull_of_mem_fetched hrow
  refine ⟨goesWith_iff_linkedBy hthrough hkeyed, fun halike => ?_⟩
  rw [goesWith_sameText hdatabase (hrows owner howner) halike]
  exact goesWith_iff_linkedBy hthrough hkeyed

end Attached

/-! ### Posts and their tags -/

namespace Tags

def through : Through := ⟨"post_tags", "post_id", "tag_id"⟩

def relation : Relation := ⟨"tags", .many, 1, ⟨"id", "id", some through⟩⟩

def post : Entity :=
  { id := 0, name := "Post", table := "posts", columns := [], virtuals := [], filters := [],
    customSingle := none, customList := none, relations := [("tags", relation)] }

def tag : Entity :=
  { id := 1, name := "Tag", table := "tags", columns := [], virtuals := [], filters := [],
    customSingle := none, customList := none, relations := [] }

def first : Row := [("id", .num (.int 1))]

def second : Row := [("id", .num (.int 2))]

def rust : Row := [("id", .num (.int 7)), ("label", .str "rust")]

def lean : Row := [("id", .num (.int 8)), ("label", .str "lean")]

/-- The first post has its key written in another way here, and the second one its tag's. -/
def links : List Row :=
  [[("post_id", .num (.float (Double.ofNat 1))), ("tag_id", .num (.int 7))],
    [("post_id", .num (.int 2)), ("tag_id", .num (.float (Double.ofNat 8)))]]

def database : Database :=
  ⟨⟨[post, tag]⟩, [("posts", [first, second]), ("tags", [rust, lean]), ("post_tags", links)]⟩

/-- The posts with their tags. -/
def loading : Run (List Row) :=
  loadNode database [] false post ⟨"tags", none, [], []⟩ [first, second]

theorem proper_float {n : Nat} (h : n = 1 ∨ n = 8) :
    (Json.num (.float (Double.ofNat n))).Proper := by
  have hgrid : ∀ n ∈ [1, 8], Double.OnGrid (Double.ofNat n).steps := by decide +kernel
  exact ⟨hgrid n (by simpa using h), trivial⟩

theorem proper_database : database.Proper := by
  simp only [Database.Proper, ProperRow, database, first, second, rust, lean, links,
    List.forall_mem_cons, List.not_mem_nil, false_implies, implies_true, and_true]
  simp only [Json.proper_int, Json.proper_str, proper_float, or_true, true_or, and_self]

theorem fetched_tags :
    fetched database relation.join tag.query [] [first, second] = [rust, lean] := by
  have hgo : ∀ row ∈ [rust, lean], ([first, second].any fun owner =>
      goesWith equals database relation.join owner row) = true := by decide +kernel
  exact List.filter_eq_self.mpr hgo

theorem writtenAlike_second : WrittenAlike database relation.join second := by
  rintro _ ⟨⟩ pivot hpivot key held hkey hheld hequal
  cases hkey
  have hpivots : pivot ∈ links := hpivot
  simp only [links, List.mem_cons, List.not_mem_nil, or_false] at hpivots
  rcases hpivots with rfl | rfl
  · cases hheld
    exact absurd hequal (by decide +kernel)
  · cases hheld
    rfl

end Tags

/-- The second post gets the tags that pivot rows link to it, however their keys are written. -/
theorem loadNode_through_tags :
    ∃ loaded, ∃ attached : Row → Row → Bool, Tags.loading.result = .ok loaded
      ∧ (loaded = [Tags.first, Tags.second].map fun owner => Named.put "tags"
          (.arr (([Tags.rust, Tags.lean].filter (attached owner)).map Json.obj)) owner)
      ∧ ∀ row ∈ [Tags.rust, Tags.lean], (attached Tags.second row = true
        ↔ LinkedBy equals Tags.database Tags.relation.join Tags.through Tags.second row) := by
  obtain ⟨loaded, hloaded, -⟩ :=
    Outcome.ok_of_any (show Tags.loading.result.toOption.any (fun _ => true) = true by
      decide +kernel)
  have hposts : ∀ owner ∈ Tags.database.table "posts", ProperAt "id" owner :=
    fun owner howner value hvalue => (Tags.proper_database.row howner).find? hvalue
  obtain ⟨query, bound, load, attached, hquery, hbound, hload, hrows, hattached⟩ :=
    loadNode_through Tags.proper_database hposts
      (show Tags.post.relation? "tags" = some Tags.relation from rfl)
      (fun child hchild => absurd hchild List.not_mem_nil) hloaded rfl
  obtain rfl : Tags.tag.query = query := Except.ok.inj hquery
  obtain rfl : [] = bound := Except.ok.inj hbound
  rw [Tags.fetched_tags] at hload hrows hattached
  have hsame : [Tags.rust, Tags.lean] = [load Tags.rust, load Tags.lean] :=
    loadNodes_nil_ok.mp hload
  have hload : ∀ row ∈ [Tags.rust, Tags.lean], load row = row := by
    simpa [eq_comm] using hsame
  refine ⟨loaded, attached, hloaded, ?_, fun row hrow => ?_⟩
  · refine hrows.trans (List.map_congr_left fun owner _ => ?_)
    refine congrArg (fun rows : List Row => Named.put "tags" (.arr (rows.map Json.obj)) owner) ?_
    refine (List.map_congr_left fun row hrow => ?_).trans (List.map_id _)
    exact hload row (List.mem_of_mem_filter hrow)
  · have hsecond : Tags.second ∈ Tags.database.table "posts" := by
      simp [table, Tags.database, Named.find?]
    exact (hattached Tags.second hsecond row hrow).2 Tags.writtenAlike_second

/-- **What a pivot row links to a post and is fetched for it does not reach it**, if the pivot row
holds the post's key as another text. -/
theorem loadNode_unlinked :
    Tags.rust ∈ fetched Tags.database Tags.relation.join Tags.tag.query []
        [Tags.first, Tags.second]
      ∧ LinkedBy equals Tags.database Tags.relation.join Tags.through Tags.first Tags.rust
      ∧ ∃ loaded, Tags.loading.result = .ok loaded
        ∧ (loaded.head?.bind (Named.find? "tags")).map Json.text = some "[]" := by
  refine ⟨?_, ?_, ?_⟩
  · rw [Tags.fetched_tags]
    exact List.mem_cons_self
  · have hkeys : equals (.num (.int 1)) (.num (.float (Double.ofNat 1))) = true
        ∧ equals (.num (.int 7)) (.num (.int 7)) = true := by decide +kernel
    exact ⟨_, _, rfl, rfl, rfl, _, List.mem_cons_self, _, _, rfl, rfl, hkeys.1, hkeys.2⟩
  · have hnone : Tags.loading.result.toOption.any (fun loaded =>
        (loaded.head?.bind (Named.find? "tags")).map Json.text == some "[]") = true := by
      decide +kernel
    obtain ⟨loaded, hloaded, htext⟩ := Outcome.ok_of_any hnone
    exact ⟨loaded, hloaded, beq_iff_eq.mp htext⟩

end Database

end GraphFetch

/-
What the names of filters mean.

A built-in filter of an entity is named by a column with an ending, or is one of those for order and
window, whose names are fixed.  Two columns make one name if the one is called like the other one
with an ending, or with `Not`, where the endings say the rest.  There is no other way, since no
other ending is the end of a longer one.  The filter is then that of the last column that makes the
name, and the names for order and window win over any column.

So the endings are laid down here apart from the table of the filters, with the condition that each
of them stands for, and a filter is found to put this condition on its column unless a later column
has the name too.
-/
import GraphFetch.Proofs.Database.Ranges
import GraphFetch.Proofs.Schema.Closed

namespace GraphFetch

/-- The query after the filter of an argument, if it has one. -/
def Entity.filtered? (entity : Entity) (query : Query) (argument : String) (value : Option Const) :
    Option Query :=
  (entity.filter? argument).map fun filter => query.applyAll (filter value)

namespace ArgumentFilter

/-! ### Endings -/

/-- What stands behind the name of a column in the name of a filter. -/
inductive Ending
  | plain
  | eq
  | notEq
  | gt
  | gte
  | lt
  | lte
  | like
  | likeNoCase
  | isIn
  | notIn
  | isNull
deriving DecidableEq

namespace Ending

def text : Ending → String
  | plain => ""
  | eq => "Eq"
  | notEq => "NotEq"
  | gt => "Gt"
  | gte => "Gte"
  | lt => "Lt"
  | lte => "Lte"
  | like => "Like"
  | likeNoCase => "LikeNoCase"
  | isIn => "In"
  | notIn => "NotIn"
  | isNull => "IsNull"

/-- What an ending asks of a column: only whether it is null depends on the value. -/
def operator (value : Option Const) : Ending → Operator
  | plain => .eq
  | eq => .eq
  | notEq => .notEq
  | gt => .gt
  | gte => .gte
  | lt => .lt
  | lte => .lte
  | like => .like
  | likeNoCase => .ilike
  | isIn => .isIn
  | notIn => .notIn
  | isNull => if (value.map isTruthy).getD false then .isNull else .isNotNull

/-- The value that an ending has a column checked against. -/
def bound (value : Option Const) : Ending → Option Const
  | isNull => none
  | _ => value

/-- The condition that a column's name with an ending stands for. -/
def condition (ending : Ending) (column : Column) (value : Option Const) : Condition :=
  ⟨column.storageName, ending.operator value, ending.bound value⟩

def all : List Ending :=
  [plain, eq, notEq, gt, gte, lt, lte, like, likeNoCase, isIn, notIn, isNull]

theorem mem_all (ending : Ending) : ending ∈ all := by
  cases ending <;> decide

theorem text_injective {ending other : Ending} (h : ending.text = other.text) :
    ending = other := by
  have hall : ∀ ending ∈ all, ∀ other ∈ all, ending.text = other.text → ending = other := by
    decide
  exact hall ending ending.mem_all other other.mem_all h

/-- One ending is the end of another one only behind `Not`. -/
theorem suffix_cases {ending other : Ending} (h : other.text.toList <:+ ending.text.toList) :
    other = plain ∨ other = ending ∨ ending = notEq ∧ other = eq
      ∨ ending = notIn ∧ other = isIn := by
  have hall : ∀ ending ∈ all, ∀ other ∈ all, other.text.toList <:+ ending.text.toList →
      other = plain ∨ other = ending ∨ ending = notEq ∧ other = eq
        ∨ ending = notIn ∧ other = isIn := by
    decide +kernel
  exact hall ending ending.mem_all other other.mem_all h

end Ending

/-- Whether a name with an ending is another name with an ending, which has more in front of it:
the whole ending, or the `Not` in front of an ending. -/
inductive Overlaps (name : String) : Ending → String → Ending → Prop
  | whole (ending : Ending) : Overlaps name ending (name ++ ending.text) .plain
  | notEq : Overlaps name .notEq (name ++ "Not") .eq
  | notIn : Overlaps name .notIn (name ++ "Not") .isIn

theorem overlaps_of_append {name other : String} {ending ending' : Ending} {more : List Char}
    (hname : other.toList = name.toList ++ more)
    (hending : ending.text.toList = more ++ ending'.text.toList) (hmore : more ≠ []) :
    Overlaps name ending other ending' := by
  obtain rfl : other = name ++ String.ofList more := by
    rw [← String.toList_inj, hname, String.toList_append, String.toList_ofList]
  rcases Ending.suffix_cases ⟨more, hending.symm⟩ with rfl | rfl | ⟨rfl, rfl⟩ | ⟨rfl, rfl⟩
  · have hwhole : more = ending.text.toList := by
      rw [hending]
      exact (List.append_nil more).symm
    rw [hwhole, String.ofList_toList]
    exact .whole ending
  · exact absurd (List.self_eq_append_left.mp hending) hmore
  · obtain rfl : "Not".toList = more := List.append_cancel_right (hending : "Not".toList ++ _ = _)
    exact .notEq
  · obtain rfl : "Not".toList = more := List.append_cancel_right (hending : "Not".toList ++ _ = _)
    exact .notIn

theorem Overlaps.text_eq {name other : String} {ending ending' : Ending}
    (h : Overlaps name ending other ending') : name ++ ending.text = other ++ ending'.text := by
  cases h with
  | whole => exact String.append_empty.symm
  | notEq => exact (@String.append_assoc name "Not" "Eq").symm
  | notIn => exact (@String.append_assoc name "Not" "In").symm

/-- **Two columns make one name exactly if one of them is named like the other one with an ending,
or with `Not`.** -/
theorem text_eq_iff {name other : String} {ending ending' : Ending} (hne : name ≠ other) :
    name ++ ending.text = other ++ ending'.text
      ↔ Overlaps name ending other ending' ∨ Overlaps other ending' name ending := by
  constructor
  · intro h
    rw [← String.toList_inj, String.toList_append, String.toList_append,
      List.append_eq_append_iff] at h
    rcases h with ⟨more, hname, hending⟩ | ⟨more, hname, hending⟩
    · refine Or.inl (overlaps_of_append hname hending ?_)
      rintro rfl
      rw [List.append_nil, String.toList_inj] at hname
      exact hne hname.symm
    · refine Or.inr (overlaps_of_append hname hending ?_)
      rintro rfl
      rw [List.append_nil, String.toList_inj] at hname
      exact hne hname
  · rintro (h | h)
    · exact h.text_eq
    · exact h.text_eq.symm

/-! ### Filters under a name -/

/-- The names of the filters for order and window. -/
def windowNames : List String := ["orderBy", "orderByDesc", "range", "limit", "offset"]

theorem names_ofWindow (columns : List Column) : Named.names (ofWindow columns) = windowNames := rfl

theorem ofColumn_eq (column : Column) :
    ofColumn column = Ending.all.map fun ending =>
      (column.name ++ ending.text, fun value => [.filter (ending.condition column value)]) := by
  have hplain : column.name = column.name ++ Ending.plain.text := String.append_empty.symm
  exact List.cons_eq_cons.mpr ⟨Prod.ext hplain rfl, rfl⟩

theorem names_ofColumn (column : Column) :
    Named.names (ofColumn column) = Ending.all.map fun ending => column.name ++ ending.text := by
  rw [ofColumn_eq]
  exact List.map_map

/-- No name for order or window has an ending but the plain one. -/
theorem plain_of_mem_windowNames {name : String} {ending : Ending}
    (h : name ++ ending.text ∈ windowNames) : ending = .plain := by
  have hall : ∀ ending ∈ Ending.all, ∀ reserved ∈ windowNames,
      ending.text.toList <:+ reserved.toList → ending = .plain := by
    decide +kernel
  refine hall ending ending.mem_all _ h ⟨name.toList, ?_⟩
  exact String.toList_append.symm

variable {columns before after : List Column} {column : Column} {ending : Ending} {name : String}

theorem names_defaults (columns : List Column) :
    Named.names (defaults columns)
      = Named.names ((columns.filter fun column => !column.computed).flatMap ofColumn)
        ++ windowNames :=
  Named.names_append _ _

/-- The names that columns make. -/
theorem mem_names_flatMap :
    name ∈ Named.names ((columns.filter fun column => !column.computed).flatMap ofColumn)
      ↔ ∃ column ∈ columns, column.computed = false
          ∧ ∃ ending : Ending, column.name ++ ending.text = name := by
  constructor
  · intro hmem
    obtain ⟨entry, hentry, rfl⟩ := List.mem_map.mp hmem
    obtain ⟨column, hcolumn, hentry⟩ := List.mem_flatMap.mp hentry
    obtain ⟨hcolumn, hstored⟩ := List.mem_filter.mp hcolumn
    rw [ofColumn_eq] at hentry
    obtain ⟨ending, -, rfl⟩ := List.mem_map.mp hentry
    exact ⟨column, hcolumn, (Bool.not_eq_true' _).mp hstored, ending, rfl⟩
  · rintro ⟨column, hcolumn, hstored, ending, rfl⟩
    have hmem : column.name ++ ending.text ∈ Named.names (ofColumn column) := by
      rw [names_ofColumn]
      exact List.mem_map_of_mem ending.mem_all
    obtain ⟨entry, hentry, hname⟩ := List.mem_map.mp hmem
    have hkept : column ∈ columns.filter fun column => !column.computed :=
      List.mem_filter.mpr ⟨hcolumn, (Bool.not_eq_true' _).mpr hstored⟩
    exact List.mem_map.mpr ⟨entry, List.mem_flatMap.mpr ⟨column, hkept, hentry⟩, hname⟩

/-- Whether the name of a column's filter is one that later columns make, or one for order and
window. -/
def Displaced (column : Column) (ending : Ending) (after : List Column) : Prop :=
  column.name ++ ending.text ∈ Named.names (defaults after)

instance (column : Column) (ending : Ending) (after : List Column) :
    Decidable (Displaced column ending after) :=
  inferInstanceAs (Decidable (_ ∈ _))

/-- Whether a later column that is stored makes the name of a column's filter, one way or the
other. -/
def OverlapsLater (column : Column) (ending : Ending) (after : List Column) : Prop :=
  ∃ other ∈ after, other.computed = false ∧ ∃ ending' : Ending,
    Overlaps column.name ending other.name ending'
      ∨ Overlaps other.name ending' column.name ending

/-- **How a filter is displaced**: its column is named like one for order or window, or it overlaps
with a later column. -/
theorem displaced_iff (hnames : ((column :: after).map Column.name).Nodup) :
    Displaced column ending after
      ↔ (ending = .plain ∧ column.name ∈ windowNames) ∨ OverlapsLater column ending after := by
  have hne : ∀ other ∈ after, column.name ≠ other.name := fun other hother heq =>
    (List.nodup_cons.mp hnames).1 (heq ▸ List.mem_map_of_mem hother)
  unfold Displaced
  rw [names_defaults, List.mem_append, mem_names_flatMap]
  constructor
  · rintro (⟨other, hother, hstored, ending', hname⟩ | hwindow)
    · exact Or.inr ⟨other, hother, hstored, ending',
        (text_eq_iff (hne other hother)).mp hname.symm⟩
    · obtain rfl := plain_of_mem_windowNames hwindow
      exact Or.inl ⟨rfl, by rwa [Ending.text, String.append_empty] at hwindow⟩
  · rintro (⟨rfl, hwindow⟩ | ⟨other, hother, hstored, ending', hoverlaps⟩)
    · exact Or.inr (by rwa [Ending.text, String.append_empty])
    · exact Or.inl ⟨other, hother, hstored, ending',
        ((text_eq_iff (hne other hother)).mpr hoverlaps).symm⟩

/-- A name for order or window means what it says, whatever the columns are called. -/
theorem find?_window (h : name ∈ windowNames) :
    Named.find? name (defaults columns).reverse = Named.find? name (ofWindow columns) := by
  have hdistinct : Named.Distinct (ofWindow columns) := by
    unfold Named.Distinct
    rw [names_ofWindow]
    decide
  obtain ⟨filter, hfilter⟩ : ∃ filter, Named.find? name (ofWindow columns) = some filter :=
    Option.ne_none_iff_exists'.mp fun hnone =>
      Named.find?_eq_none.mp hnone (by rwa [names_ofWindow])
  unfold defaults
  rw [List.reverse_append, Named.find?_append,
    hdistinct.find?_perm (List.reverse_perm (ofWindow columns)).symm, hfilter]
  rfl

/-- A column's own filters have different names. -/
theorem distinct_ofColumn (column : Column) : Named.Distinct (ofColumn column) := by
  unfold Named.Distinct
  rw [names_ofColumn]
  refine List.Nodup.map ?_ (by decide)
  intro ending ending' h
  exact Ending.text_injective ((String.append_right_inj _).mp h)

/-- Any other name means what the last column says that makes it. -/
theorem find?_ending (hstored : column.computed = false) (hlast : ¬ Displaced column ending after) :
    Named.find? (column.name ++ ending.text) (defaults (before ++ column :: after)).reverse
      = some fun value => [.filter (ending.condition column value)] := by
  unfold Displaced at hlast
  rw [names_defaults, List.mem_append, not_or] at hlast
  obtain ⟨hafter, hwindow⟩ := hlast
  have hown : Named.find? (column.name ++ ending.text) (ofColumn column).reverse
      = some fun value => [.filter (ending.condition column value)] := by
    rw [(distinct_ofColumn column).find?_perm (List.reverse_perm _).symm]
    refine (distinct_ofColumn column).find? ?_
    rw [ofColumn_eq]
    exact List.mem_map.mpr ⟨ending, ending.mem_all, rfl⟩
  have hcolumns : (before ++ column :: after).filter (fun column => !column.computed)
      = before.filter (fun column => !column.computed)
        ++ column :: after.filter fun column => !column.computed := by
    rw [List.filter_append, List.filter_cons_of_pos (by rw [hstored]; rfl)]
  unfold defaults
  rw [hcolumns, List.flatMap_append, List.flatMap_cons, List.reverse_append,
    List.reverse_append, List.reverse_append,
    Named.find?_append, Named.find?_append, Named.find?_append,
    Named.find?_reverse_of_notMem (by rwa [names_ofWindow]), Named.find?_reverse_of_notMem hafter,
      hown]
  rfl

/-- With distinct names a column is sorted by where it is stored. -/
theorem storageName?_eq (hnames : (columns.map Column.name).Nodup) (h : column ∈ columns) :
    storageName? columns column.name = some column.storageName := by
  unfold storageName?
  obtain ⟨other, hother⟩ : ∃ other,
      columns.reverse.find? (fun other => other.name == column.name) = some other :=
    Option.isSome_iff_exists.mp
      (List.find?_isSome.mpr ⟨column, List.mem_reverse.mpr h, beq_self_eq_true _⟩)
  have hname : other.name = column.name := by simpa using List.find?_some hother
  have hmem : other ∈ columns := List.mem_reverse.mp (List.mem_of_find?_eq_some hother)
  rw [hother, List.inj_on_of_nodup_map hnames hmem h hname]
  rfl

theorem applyAll_orderBy (hnames : (columns.map Column.name).Nodup) (h : column ∈ columns)
    {value : Const} (hvalue : columnName? value = some column.name) (query : Query)
    (direction : Direction) :
    query.applyAll (orderBy (storageName? columns) direction (some value))
      = { query with orderings := query.orderings ++ [⟨column.storageName, direction⟩] } := by
  unfold orderBy
  rw [Option.bind_some, hvalue]
  dsimp only
  rw [storageName?_eq hnames h]
  rfl

theorem applyAll_limit {value : Const} {count : Nat} (h : count? value = some count)
    (query : Query) : query.applyAll (limit (some value)) = { query with limit := some count } := by
  unfold limit
  rw [Option.bind_some, h]
  rfl

theorem applyAll_offset {value : Const} {count : Nat} (h : count? value = some count)
    (query : Query) :
    query.applyAll (offset (some value)) = { query with offset := some count } := by
  unfold offset
  rw [Option.bind_some, h]
  rfl

end ArgumentFilter

/-! ### Entities -/

open ArgumentFilter

/-- What the filters for order and window do: they are about client names and counts. -/
structure Entity.Arranges (entity : Entity) (columns : List Column) : Prop where
  orderBy : ∀ query value, ∀ column ∈ columns, columnName? value = some column.name →
    entity.filtered? query "orderBy" (some value)
      = some { query with orderings := query.orderings ++ [⟨column.storageName, .ascending⟩] }
  orderByDesc : ∀ query value, ∀ column ∈ columns, columnName? value = some column.name →
    entity.filtered? query "orderByDesc" (some value)
      = some { query with orderings := query.orderings ++ [⟨column.storageName, .descending⟩] }
  range : ∀ query start stop first last, count? start = some first → count? stop = some last →
    last < countLimit → entity.filtered? query "range" (some (.list [start, stop]))
      = some { query with offset := some first, limit := rangeLimit query.limit first last }
  limit : ∀ query value count, count? value = some count →
    entity.filtered? query "limit" (some value) = some { query with limit := some count }
  offset : ∀ query value count, count? value = some count →
    entity.filtered? query "offset" (some value) = some { query with offset := some count }

variable {names : List String} {id : EntityId} {registration : Registration} {entity : Entity}
  {name : String}

/-- The filter under a built-in name is the built-in one that was named last, unless the
registration has its own. -/
theorem Registration.build_filter? (hbuild : registration.build names id = .ok entity)
    (hdefaults : registration.defaultFilters = true)
    (hown : name ∉ Named.names registration.filters) :
    entity.filter? name = Named.find? name (defaults registration.columns).reverse := by
  obtain ⟨relations, -, heq⟩ := Outcome.bind_ok.mp hbuild
  obtain rfl := Outcome.pure_ok.mp heq
  show Named.find? name registration.allFilters = _
  unfold Registration.allFilters
  rw [if_pos hdefaults, Named.find?_ofList, List.reverse_append, Named.find?_append,
    Named.find?_reverse_of_notMem hown]
  rfl

/-- The filters for order and window of an entity are those of its columns. -/
theorem Registration.build_arranges (hbuild : registration.build names id = .ok entity)
    (hdefaults : registration.defaultFilters = true)
    (hown : ∀ name ∈ windowNames, name ∉ Named.names registration.filters)
    (hnames : (registration.columns.map Column.name).Nodup) :
    entity.Arranges registration.columns := by
  have hfilter : ∀ name ∈ windowNames, ∀ (query : Query) value, entity.filtered? query name value
      = (Named.find? name (ofWindow registration.columns)).map fun filter =>
          query.applyAll (filter value) := by
    intro name hname query value
    unfold Entity.filtered?
    rw [build_filter? hbuild hdefaults (hown name hname), find?_window hname]
  constructor
  · intro query value column hcolumn hvalue
    rw [hfilter _ (by decide), ← applyAll_orderBy hnames hcolumn hvalue query .ascending]
    rfl
  · intro query value column hcolumn hvalue
    rw [hfilter _ (by decide), ← applyAll_orderBy hnames hcolumn hvalue query .descending]
    rfl
  · intro query start stop first last hfirst hlast hlt
    rw [hfilter _ (by decide), ← applyAll_range query hfirst hlast hlt]
    rfl
  · intro query value count hcount
    rw [hfilter _ (by decide), ← applyAll_limit hcount query]
    rfl
  · intro query value count hcount
    rw [hfilter _ (by decide), ← applyAll_offset hcount query]
    rfl

/-- **The built-in filters of an entity mean what their names say.**  The name of a stored column
with an ending puts the condition of that ending on this column, and changes nothing else of a
query, unless it is displaced, which takes a column that is named like a filter: one for order or
window, or one of another column.  The names for order and window are never displaced. -/
theorem Registry.build_filter_names {registrations : List Registration} {registry : Registry}
    (hbuild : Registry.build registrations = .ok registry) {place : Nat}
    (hplace : registrations[place]? = some registration)
    (hdefaults : registration.defaultFilters = true)
    (hown : ∀ name ∈ Named.names (defaults registration.columns),
      name ∉ Named.names registration.filters)
    (hnames : (registration.columns.map Column.name).Nodup) :
    (∀ before column after, registration.columns = before ++ column :: after →
      column.computed = false → ∀ ending : Ending,
        (¬ Displaced column ending after → ∀ query value,
          (registry.entity place).filtered? query (column.name ++ ending.text) value
            = some { query with
                conditions := query.conditions ++ [ending.condition column value] })
          ∧ (Displaced column ending after
            ↔ (ending = .plain ∧ column.name ∈ windowNames) ∨ OverlapsLater column ending after))
      ∧ (registry.entity place).Arranges registration.columns := by
  obtain ⟨-, -, hentity⟩ := Registry.build_place hbuild hplace
  constructor
  · intro before column after hcolumns hstored ending
    have hmade : column.name ++ ending.text ∈ Named.names (defaults registration.columns) := by
      rw [names_defaults, List.mem_append, mem_names_flatMap, hcolumns]
      exact Or.inl ⟨column, List.mem_append_right _ List.mem_cons_self, hstored, ending, rfl⟩
    constructor
    · intro hlast query value
      unfold Entity.filtered?
      rw [Registration.build_filter? hentity hdefaults (hown _ hmade), hcolumns,
        find?_ending hstored hlast]
      rfl
    · rw [hcolumns, List.map_append] at hnames
      exact displaced_iff (List.nodup_append.mp hnames).2.1
  · refine Registration.build_arranges hentity hdefaults (fun name hname => hown name ?_) hnames
    rw [names_defaults]
    exact List.mem_append_right _ hname

/-! ### Columns that are named like filters -/

namespace Catalogue

def title : Column := ⟨"title", "post_title", false⟩

/-- Named like the filter for titles that are like a text. -/
def titleLike : Column := ⟨"titleLike", "like_text", false⟩

/-- Named like the filter for the number of rows. -/
def limit : Column := ⟨"limit", "post_limit", false⟩

def post : Registration :=
  { name := "Post", table := "posts", columns := [title, titleLike, limit] }

def registry : Registry := ((Registry.build [post]).toOption).getD default

def posts : Entity := registry.entity 0

def pattern : Const := .string "%a%"

end Catalogue

/-- Titles are still compared, the other column is found by its own name, and rows are sorted by
where the column that is called `limit` is stored. -/
theorem Registry.build_filter_names_catalogue :
    (Registry.build [Catalogue.post] = .ok Catalogue.registry
        ∧ [Catalogue.post][0]? = some Catalogue.post ∧ Catalogue.post.defaultFilters = true
        ∧ (∀ name ∈ Named.names (defaults Catalogue.post.columns),
          name ∉ Named.names Catalogue.post.filters)
        ∧ (Catalogue.post.columns.map Column.name).Nodup)
      ∧ (∀ query value, Catalogue.posts.filtered? query "titleGt" value
          = some { query with conditions := query.conditions ++ [⟨"post_title", .gt, value⟩] })
      ∧ (∀ query value, Catalogue.posts.filtered? query "titleLike" value
          = some { query with conditions := query.conditions ++ [⟨"like_text", .eq, value⟩] })
      ∧ (∀ query, Catalogue.posts.filtered? query "orderBy" (some (.enum "limit"))
          = some { query with orderings := query.orderings ++ [⟨"post_limit", .ascending⟩] }) := by
  have hbuild : Registry.build [Catalogue.post] = .ok Catalogue.registry := rfl
  have hown : ∀ name ∈ Named.names (defaults Catalogue.post.columns),
      name ∉ Named.names Catalogue.post.filters := fun _ _ => List.not_mem_nil
  have hnames : (Catalogue.post.columns.map Column.name).Nodup := by decide
  have hplace : [Catalogue.post][0]? = some Catalogue.post := rfl
  obtain ⟨hcolumns, harranges⟩ := Registry.build_filter_names hbuild hplace rfl hown hnames
  refine ⟨⟨hbuild, hplace, rfl, hown, hnames⟩, ?_, ?_, ?_⟩
  · intro query value
    exact (hcolumns [] Catalogue.title [Catalogue.titleLike, Catalogue.limit] rfl rfl .gt).1
      (by decide +kernel) query value
  · intro query value
    exact (hcolumns [Catalogue.title] Catalogue.titleLike [Catalogue.limit] rfl rfl .plain).1
      (by decide +kernel) query value
  · intro query
    exact harranges.orderBy query (.enum "limit") Catalogue.limit (by decide) rfl

/-- **A name has one meaning.**  Columns that are named like filters take the name: what is called
like a filter of another column compares the column of the whole name and not the other one, and
what is called like one for order or window is one. -/
theorem Registry.build_filter_names_displaced :
    Registry.build [Catalogue.post] = .ok Catalogue.registry
      ∧ Catalogue.post.defaultFilters = true ∧ Catalogue.post.filters = []
      ∧ (Catalogue.post.columns.map Column.name).Nodup
      ∧ (Catalogue.posts.filtered? Catalogue.posts.query
            (Catalogue.title.name ++ Ending.like.text) (some Catalogue.pattern)).map
          Query.conditions = some [⟨"like_text", .eq, some Catalogue.pattern⟩]
      ∧ Catalogue.posts.filtered? Catalogue.posts.query
          (Catalogue.title.name ++ Ending.like.text) (some Catalogue.pattern)
        ≠ some { Catalogue.posts.query with conditions := Catalogue.posts.query.conditions
            ++ [Ending.like.condition Catalogue.title (some Catalogue.pattern)] }
      ∧ (Catalogue.posts.filtered? Catalogue.posts.query
            (Catalogue.limit.name ++ Ending.plain.text) (some (.number (.int 3)))).map
          (fun query => (query.conditions, query.limit)) = some ([], some 3) := by
  refine ⟨rfl, rfl, rfl, by decide, rfl, ?_, rfl⟩
  intro h
  have hcolumns : some ["like_text"] = some ["post_title"] :=
    congrArg (Option.map fun query : Query => query.conditions.map Condition.column) h
  exact absurd hcolumns (by decide)

end GraphFetch

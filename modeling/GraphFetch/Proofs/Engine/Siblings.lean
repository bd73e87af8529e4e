/-
Siblings, which have no part in each other's answers.

What a relation attaches stands in the row of its owner next to the columns, under a key of
the client's choice, and the row is read many times over after that.  If the parts of all
sets keep apart, what is told of a field does not depend on the others: a request with one
set narrowed to one key is answered as before, without what the other keys of that set were
answered.  A relation that takes the place of a column that its siblings join by changes
what they are answered.
-/
import GraphFetch.Proofs.Engine.Answers
import GraphFetch.Proofs.Engine.Inlined
import GraphFetch.Proofs.Engine.StoredColumns
import GraphFetch.Proofs.Plan.Narrowed

namespace GraphFetch

open Database (relationValue)
open Normalized (changeRows changeRows_relationValue)

/-! ### Answers with members left out -/

/-- The members of an answer with those under one key for all those of the rows on a path. -/
def narrowRow (key : String) : List String → Row → Row
  | [] => Named.only key
  | step :: path => Named.changeAt step (changeRows (narrowRow key path))

theorem ofList_narrowRow (key : String) (path : List String) (members : List (String × Json)) :
    Named.ofList (narrowRow key path members) = narrowRow key path (Named.ofList members) := by
  cases path with
  | nil => exact Named.ofList_only key members
  | cons step path => exact Named.ofList_changeAt step _ members

theorem changeRows_typed (change : Row → Row) (entity : Entity) (name : String) (value : Json) :
    changeRows change (typed entity name value) = typed entity name (changeRows change value) := by
  unfold typed
  split <;> rfl

namespace Reading

variable {reading : Reading} {tells : Entity → Row → String → Json → Prop} {entity : Entity}
  {rows : List Row} {selected : Selected} {members : Row → List (String × Json)}

/-- Fewer fields tell less, and nothing else. -/
theorem Tells.only (key : String) (h : reading.Tells tells entity rows selected members) :
    reading.Tells tells entity rows (selected.only key)
      fun row => Named.only key (members row) := by
  induction h with
  | none => exact .none
  | plain hname hvalue _ ih =>
      simp only [Selected.only, Named.only_cons]
      split
      · exact .plain hname hvalue ih
      · exact ih
  | relation hname hfound hbelow _ _ ih =>
      simp only [Selected.only, Named.only_cons]
      split
      · exact .relation hname hfound hbelow ih
      · exact ih

/-- **A narrowed selection tells the narrowed members**, if no filter reads the projection. -/
theorem Tells.narrow
    (hblind : ∀ id, (reading.database.registry.entity id).FiltersAll Blind) (key : String)
    {path : List String}
    (hleads : selected.Leads reading.database.registry path entity)
    (h : reading.Tells tells entity rows selected members) :
    reading.Tells tells entity rows (selected.narrow key path)
      fun row => narrowRow key path (members row) := by
  induction path generalizing entity rows selected members with
  | nil => exact h.only key
  | cons step path ihPath =>
      show reading.Tells tells entity rows (selected.changeBelow step (Selected.narrow key path))
        fun row => Named.changeAt step (changeRows (narrowRow key path)) (members row)
      unfold Selected.Leads at hleads
      induction h with
      | none => exact .none
      | @plain entity rows name asName arguments children rest value members hname hvalue _ ih =>
          have hkey : responseKey name asName ≠ step := by
            intro hkey
            obtain ⟨relation, hrelation, -⟩ := hleads.1 hkey
            rw [hname] at hrelation
            cases hrelation
          simp only [Selected.changeBelow, Named.changeAt_cons, if_neg hkey]
          exact .plain hname hvalue (ih hleads.2)
      | @relation entity rows found name asName arguments children rest below members relation hname
          hfound hbelow _ _ ih =>
          by_cases hkey : responseKey name asName = step
          · obtain ⟨other, hother, hleadsBelow⟩ := hleads.1 hkey
            obtain rfl : relation = other := Option.some.inj (hname.symm.trans hother)
            have hnarrowed : reading.Tells tells
                (reading.database.registry.entity relation.target) found
                ((children ()).narrow key path) fun row => narrowRow key path (below row) :=
              ihPath hleadsBelow hbelow
            simp only [Selected.changeBelow, Named.changeAt_cons, if_pos hkey, changeRows_typed,
              changeRows_relationValue, List.map_map, Function.comp_def, ← ofList_narrowRow]
            exact .relation hname
              (related_blind reading (hblind relation.target) hnarrowed.whole hfound)
              hnarrowed (ih hleads.2)
          · simp only [Selected.changeBelow, Named.changeAt_cons, if_neg hkey]
            exact .relation hname hfound hbelow (ih hleads.2)

end Reading

/-! ### Narrowed root fields -/

/-- Parts of clean selections are clean. -/
theorem Selected.Part.clean {registry : Registry} {entity : Entity} {selected part : Selected}
    (h : Selected.Part selected part) (hclean : selected.Clean registry entity) :
    part.Clean registry entity where
  own := ⟨h.apart hclean.own.1, h.legible hclean.own.2⟩
  below := h.setsBelow (fun h hown => ⟨h.apart hown.1, h.legible hown.2⟩) hclean.below

/-- The selection of a root field with one set below it narrowed to a key. -/
def RootSelection.narrow (key : String) (path : List String) (selection : RootSelection) :
    RootSelection :=
  { selection with children := fun _ => (selection.children ()).narrow key path }

namespace Engine

variable {engine : Engine} {database : Database} {root : BoundRootField}

/-- **A root field with a narrowed selection is answered the narrowed value.** -/
theorem plain_narrow (hover : engine.Over database) (hloads : engine.LoadsSelected)
    (hblind : engine.IgnoresColumns)
    (hcomputable : ∀ entity ∈ database.registry.entities, entity.Computable)
    {selection : RootSelection} (hroot : engine.rootField? selection.name = some root)
    (hcustom : (engine.registry.entity root.entity).customFetch? root.cardinality = none)
    (hnamed : (selection.children ()).WellNamed)
    (hclean : (selection.children ()).Clean engine.registry (engine.registry.entity root.entity))
    {path : List String} (hleads : (selection.children ()).Leads engine.registry path
      (engine.registry.entity root.entity)) (key : String)
    {bindings : Variables} {payload other : Json} {context : RequestContext} {value : Json}
    (hvalue : engine.plain ⟨selection, bindings, payload, context⟩ = .ok value) :
    engine.plain ⟨selection.narrow key path, bindings, other, context⟩
      = .ok (changeRows (narrowRow key path) value) := by
  obtain ⟨hcompilable, filters, projection, rows, members,
      hfilters, hprojection, hrows, htells, rfl⟩ :=
    (plain_exactly _ hover hcomputable hroot (hloads.attachesSelected hroot) hcustom hnamed
      hclean).mp hvalue
  have hpart := Selected.part_narrow key path (selection.children ())
  have hcompilableInput := hpart.compilable hcompilable
  let input : ResolveInput := ⟨selection.narrow key path, bindings, other, context⟩
  have hrootInput : engine.rootField? input.selection.name = some root := hroot
  obtain ⟨projection', hprojection'⟩ : ∃ projection', Plan.projectionModifier
      (engine.planContext input) (engine.registry.entity root.entity)
        (input.selection.children ()) = .ok projection' :=
    Plan.projectionModifier_ok hcompilableInput.whole
  have hsame : (engine.rowQuery root input filters projection').SameRows
      (engine.rowQuery root input filters projection) :=
    hblind.rowQuery hrootInput filters hprojection' hprojection
  have hreading : engine.reading database root input filters projection'
      = engine.reading database root ⟨selection, bindings, payload, context⟩
        filters projection := by
    unfold reading
    rw [hsame.skipsUndefined]
    rfl
  have hfiltersBlind := Registry.entity_all (hover.registry ▸ hblind.filters)
    fun _ _ hfilter => absurd hfilter List.not_mem_nil
  have hleadsOf : (selection.children ()).Leads database.registry path
      (engine.registry.entity root.entity) := hover.registry ▸ hleads
  have hnarrowed := htells.narrow hfiltersBlind key hleadsOf
  refine (plain_exactly input hover hcomputable hrootInput (hloads.attachesSelected hrootInput)
    hcustom (hpart.wellNamed hnamed) (hpart.clean hclean)).mpr
      ⟨hcompilableInput, filters, projection', rows, _, hfilters, hprojection',
        (database.select_sameRows hsame).trans hrows, hreading ▸ hnarrowed, ?_⟩
  rw [changeRows_relationValue, List.map_map]
  refine congrArg _ (List.map_congr_left fun row _ => ?_)
  exact (ofList_narrowRow key path (members row)).symm

/-- **Siblings are independent**: if one set of a request is narrowed to the fields of one key, what
these are answered stays as it is, and so does everything else that the root field is answered,
however it is written and whatever becomes of other root fields.  The request has to be answered in
the first place, since it may fail for what is left out, and filters and root modifiers must not
read the projection, which tells them of the siblings. -/
theorem execute_siblings (hover : engine.Over database) (hloads : engine.LoadsSelected)
    (hblind : engine.IgnoresColumns)
    (hcomputable : ∀ entity ∈ database.registry.entities, entity.Computable)
    {payload other : Json} {request narrowed : AcceptedRequest}
    (haccepted : AcceptedRequest.ofJson payload = .ok request)
    (hother : AcceptedRequest.ofJson other = .ok narrowed)
    (hbindings : narrowed.bindings = request.bindings)
    (hkeys : (request.fields.map RootSelection.key).Nodup)
    (hkeysOther : (narrowed.fields.map RootSelection.key).Nodup)
    {selection : RootSelection} (hselection : selection ∈ request.fields) {key : String}
    {path : List String} {part : RootSelection} (hpart : part ∈ narrowed.fields)
    (hnarrowed : part.Alike (selection.narrow key path))
    (hroot : engine.rootField? selection.name = some root)
    (hcustom : (engine.registry.entity root.entity).customFetch? root.cardinality = none)
    (hclean : (selection.children ()).Clean engine.registry (engine.registry.entity root.entity))
    (hleads : (selection.children ()).Leads engine.registry path
      (engine.registry.entity root.entity)) (context : RequestContext)
    (hanswered : errorsAt selection.key
      (engine.uncached.execute payload context .fresh).1.response.errors = []) :
    let whole := (engine.uncached.execute payload context .fresh).1.response
    let alone := (engine.uncached.execute other context .fresh).1.response
    errorsAt selection.key alone.errors = []
      ∧ ∃ value, whole.data.member? selection.key = some value
        ∧ alone.data.member? selection.key = some (changeRows (narrowRow key path) value) := by
  dsimp only
  have hnamed := (AcceptedRequest.ofJson_wellNamed haccepted selection hselection).2.2
  obtain ⟨hdata, herrors⟩ := engine.execute_own haccepted hkeys hselection context .fresh
  have halone := engine.execute_own hother hkeysOther hpart context .fresh
  rw [hbindings] at halone
  obtain ⟨hdataAlone, herrorsAlone⟩ := halone
  have hname : part.name = selection.name := hnarrowed.name
  have hkey : part.key = selection.key := hnarrowed.key
  rw [hkey] at hdataAlone herrorsAlone
  rw [hdata, hdataAlone, herrorsAlone]
  rw [herrors] at hanswered
  unfold addField at hanswered ⊢
  by_cases htype : selection.name = "__typename"
  · have htypeAlone : part.name = "__typename" := hname.trans htype
    simp only [if_pos htype, if_pos htypeAlone, hkey]
    exact ⟨rfl, _, Named.find?_put_self _ _ _, Named.find?_put_self _ _ _⟩
  · have htypeAlone : part.name ≠ "__typename" := hname ▸ htype
    rw [if_neg htype] at hanswered
    rw [if_neg htype, if_neg htypeAlone, hkey]
    cases hplain : engine.plain ⟨selection, request.bindings, payload, context⟩ with
    | error error => simp [hplain, addOutcome, errorsAt] at hanswered
    | ok value =>
        have hfetches : engine.Fetches part := by
          intro other hother
          obtain rfl : root = other := Option.some.inj (hroot.symm.trans (hname ▸ hother))
          exact hcustom
        rw [plain_alike hnarrowed hfetches _ _ other other,
          plain_narrow hover hloads hblind hcomputable hroot hcustom hnamed hclean hleads
            key hplain]
        exact ⟨rfl, value, Named.find?_put_self _ _ _, Named.find?_put_self _ _ _⟩

end Engine

/-! ### Authors and their posts -/

namespace Blog

theorem tables_computable : ∀ entity ∈ tables.registry.entities, entity.Computable := by
  have hvirtuals : tables.registry.entities.map Entity.virtuals
      = [[("displayName", ⟨"displayName", ["name", "email"], some displayName⟩)],
        [("excerpt", ⟨"excerpt", ["body"], some excerpt⟩)], [], []] := rfl
  have hcolumns : ∀ entity ∈ tables.registry.entities, ∀ entry ∈ entity.virtuals,
      ∀ name ∈ entry.2.dependencies, name ∈ Named.names entity.columns := by decide +kernel
  intro entity hentity
  refine ⟨hcolumns entity hentity, ?_⟩
  intro entry hentry
  have hmem : entity.virtuals ∈ tables.registry.entities.map Entity.virtuals :=
    List.mem_map_of_mem hentity
  rw [hvirtuals] at hmem
  simp only [List.mem_cons, List.not_mem_nil, or_false] at hmem
  rcases hmem with h | h | h | h <;> rw [h] at hentry
  · obtain rfl := List.mem_singleton.mp hentry
    refine ⟨displayName, rfl, fun row other hsame => ?_⟩
    have hname := hsame "name" (by simp)
    have hemail := hsame "email" (by simp)
    simp only [displayName, textOf?, hname, hemail]
  · obtain rfl := List.mem_singleton.mp hentry
    refine ⟨excerpt, rfl, fun row other hsame => ?_⟩
    have hbody := hsame "body" (by simp)
    simp only [excerpt, textOf?, hbody]
  · exact absurd hentry (by simp)
  · exact absurd hentry (by simp)

theorem authorFields_legible : authorFields.Legible (tables.registry.entity 0) where
  not_plain := by decide +kernel
  no_introspection := by decide +kernel

theorem postFields_legible : postFields.Legible (tables.registry.entity 1) where
  not_plain := by decide +kernel
  no_introspection := by decide +kernel

theorem authorFields_clean : authorFields.Clean tables.registry (tables.registry.entity 0) where
  own := ⟨authorFields_apart, authorFields_legible⟩
  below := authorFields_below ⟨postFields_apart, postFields_legible⟩

/-- Asks for what `payload` asks for, but only for the titles of posts. -/
def titlesPayload : Json :=
  .obj [("query", .str "\x7b authors \x7b email posts \x7b title \x7d \x7d \x7d")]

/-- Authors with the titles of their posts. -/
def titlesSelection : RootSelection := WrittenField.root []
  ⟨"authors", none, [], [], [.leaf "email", .field "posts" none [] [] [.leaf "title"]]⟩

theorem titles_accepted :
    AcceptedRequest.ofJson titlesPayload = .ok ⟨[], [titlesSelection]⟩ :=
  (AcceptedRequest.ofJson_query _).trans rfl

theorem titles_narrowed :
    titlesSelection.Alike (authorSelection.narrow "title" ["posts"]) :=
  ⟨rfl, rfl, rfl, rfl⟩

theorem authorFields_leads :
    authorFields.Leads tables.registry ["posts"] (tables.registry.entity 0) := by
  have hemail : responseKey "email" none ≠ "posts" := by decide
  exact ⟨fun hkey => absurd hkey hemail, fun _ => ⟨_, rfl, trivial⟩, trivial⟩

end Blog

namespace Engine

/-- Of the posts of authors only the titles are left. -/
theorem execute_siblings_titles :
    let whole := ((Blog.answering {}).uncached.execute Blog.payload .empty .fresh).1.response
    let alone := ((Blog.answering {}).uncached.execute Blog.titlesPayload .empty .fresh).1.response
    errorsAt "authors" whole.errors = [] ∧ errorsAt "authors" alone.errors = []
      ∧ ∃ value, whole.data.member? "authors" = some value ∧ value.same Blog.authorsAnswer = true
        ∧ alone.data.member? "authors"
          = some (changeRows (narrowRow "title" ["posts"]) value) := by
  have hplain : ((Blog.answering {}).plain
      ⟨Blog.authorSelection, [], Blog.payload, .empty⟩).toOption.any
        (fun value => value.same Blog.authorsAnswer) = true := by decide +kernel
  obtain ⟨value, hvalue, hsame⟩ := Outcome.ok_of_any hplain
  have htype : Blog.authorSelection.name ≠ "__typename" := by decide
  obtain ⟨hdata, hanswered⟩ := (Blog.answering {}).execute_own_ok Blog.accepted
    (List.nodup_singleton _) (List.mem_singleton_self _) htype hvalue .fresh
  obtain ⟨halone, other, hother, hdataAlone⟩ := execute_siblings (Blog.answering_over rfl)
    (Blog.answering_loadsSelected {}) (Blog.answering_ignoresColumns {}) Blog.tables_computable
    Blog.accepted Blog.titles_accepted rfl
    (List.nodup_singleton _) (List.nodup_singleton _) (List.mem_singleton_self _)
    (List.mem_singleton_self _) Blog.titles_narrowed (show _ = some Blog.authorsRoot from rfl) rfl
    Blog.authorFields_clean Blog.authorFields_leads .empty hanswered
  obtain rfl : value = other := Option.some.inj (hdata.symm.trans hother)
  exact ⟨hanswered, halone, value, hdata, hsame, hdataAlone⟩

end Engine

/-! ### Posts in the place of an author's key -/

namespace Blog

/-- Asks for the posts of authors under the name of the column that they are joined by, and for the
same posts once more. -/
def displacingPayload : Json := .obj [("query", .str
  "\x7b authors \x7b id: posts \x7b title \x7d recent: posts \x7b title \x7d \x7d \x7d")]

def recentPayload : Json :=
  .obj [("query", .str "\x7b authors \x7b recent: posts \x7b title \x7d \x7d \x7d")]

/-- The titles of an author's posts under a response key. -/
def titlesUnder (key : String) : Selection := .field "posts" (some key) [] [] [.leaf "title"]

def displacingSelection : RootSelection :=
  WrittenField.root [] ⟨"authors", none, [], [], [titlesUnder "id", titlesUnder "recent"]⟩

def recentSelection : RootSelection :=
  WrittenField.root [] ⟨"authors", none, [], [], [titlesUnder "recent"]⟩

theorem displacing_accepted :
    AcceptedRequest.ofJson displacingPayload = .ok ⟨[], [displacingSelection]⟩ :=
  (AcceptedRequest.ofJson_query _).trans rfl

theorem recent_accepted :
    AcceptedRequest.ofJson recentPayload = .ok ⟨[], [recentSelection]⟩ :=
  (AcceptedRequest.ofJson_query _).trans rfl

def titled (title : String) : Json := .obj [("title", .str title)]

/-- The titles of each author's posts. -/
def titles : List (List Json) := [
  [titled "Notes on the Analytical Engine", titled "Sketch of the engine"],
  [titled "The first compiler"], [titled "Computable numbers"]]

end Blog

/-- **A relation in the place of a column displaces its siblings**: authors have posts, and asked
for nothing else they are answered with them; beside posts that stand under the name of the column
by which posts are joined they have none. -/
theorem Engine.plain_displaced :
    AcceptedRequest.ofJson Blog.displacingPayload = .ok ⟨[], [Blog.displacingSelection]⟩
      ∧ AcceptedRequest.ofJson Blog.recentPayload
        = .ok ⟨[], [Blog.recentSelection]⟩
      ∧ Blog.recentSelection.Alike (Blog.displacingSelection.narrow "recent" [])
      ∧ (∃ alone, (Blog.answering {}).plain
            ⟨Blog.recentSelection, [], Blog.recentPayload, .empty⟩ = .ok alone
          ∧ alone.same (.arr (Blog.titles.map fun posts => .obj [("recent", .arr posts)])) = true)
      ∧ ∃ whole, (Blog.answering {}).plain
            ⟨Blog.displacingSelection, [], Blog.displacingPayload, .empty⟩ = .ok whole
          ∧ whole.same (.arr (Blog.titles.map fun posts =>
              .obj [("id", .arr posts), ("recent", .arr [])])) = true := by
  refine ⟨Blog.displacing_accepted, Blog.recent_accepted, ⟨rfl, rfl, rfl, rfl⟩, ?_, ?_⟩
  · exact Outcome.ok_of_any (by decide +kernel)
  · exact Outcome.ok_of_any (by decide +kernel)

end GraphFetch

/-
What the shape of a selection set shows.

Of a row the shape shows one member for each key of the fields that the set gathers, and what
stands there is what the last field of the key answers: the name of the entity, the member of a
plain field's name, or the member of a relation's key, in the shape of what is selected below the
relation.  Lists stay as they are, place by place, and whatever holds no rows is shown itself.

So a shape reads a row in few places only, and two values that are alike in these, however deep
the relations lead, are shown as the same.  What is not selected, and what was fetched just to
join by, stands in no such place.
-/
import GraphFetch.Engine.Shaped
import GraphFetch.Proofs.Json.Equality
import GraphFetch.Proofs.Plan.WellFormed

namespace GraphFetch

namespace Shaped

open Fragments (Gathers LeadsTo)

/-! ### What is shown and what is read -/

/-- Whether no field behind a field has its key. -/
def LastOfKey (fields : List WrittenField)
    (field : WrittenField) : Prop :=
  ∃ before after, fields = before ++ field :: after ∧ field.key ∉ after.map WrittenField.key

/-- Whether a value shows of another one what a selection set of an entity selects: of each row just
the keys of the fields, under each what its last field answers, and lists in full. -/
inductive Exposes (registry : Registry) (fragments : Fragments) :
    Entity → List Selection → Json → Json → Prop
  | row {entity : Entity} {selections : List Selection}
      {fields : List WrittenField} {row output : Row}
      {answer : WrittenField → Json} (hfields : Gathers fragments selections fields)
      (hnames : Named.names output = (fields.map WrittenField.key).eraseDups)
      (hanswer : ∀ field, LastOfKey fields field →
        Named.find? field.key output = some (answer field))
      (hself : ∀ field ∈ fields, field.name = "__typename" → answer field = .str entity.name)
      (hplain : ∀ field ∈ fields, field.name ≠ "__typename" →
        entity.relation? field.name = none →
          answer field = (Named.find? field.name row).getD .null)
      (hrelation : ∀ field ∈ fields, field.name ≠ "__typename" → ∀ relation,
        entity.relation? field.name = some relation →
          Exposes registry fragments (registry.entity relation.target) field.selections
            ((Named.find? field.key row).getD .null) (answer field)) :
      Exposes registry fragments entity selections (.obj row) (.obj output)
  | list {entity : Entity} {selections : List Selection} {items shown : List Json}
      (hlength : items.length = shown.length)
      (hitems : ∀ i (hi : i < items.length) (hi' : i < shown.length),
        Exposes registry fragments entity selections items[i] shown[i]) :
      Exposes registry fragments entity selections (.arr items) (.arr shown)
  | itself {entity : Entity} {selections : List Selection} {value : Json}
      (hrow : ∀ row, value ≠ .obj row) (hlist : ∀ items, value ≠ .arr items) :
      Exposes registry fragments entity selections value value

/-- Whether two values have the same members where a selection set of an entity reads them: under
the names of plain fields and under the keys of relations, and these as far as is selected below
them. -/
inductive Alike (registry : Registry) (fragments : Fragments) :
    Entity → List Selection → Json → Json → Prop
  | same {entity : Entity} {selections : List Selection} (value : Json) :
      Alike registry fragments entity selections value value
  | row {entity : Entity} {selections : List Selection}
      {fields : List WrittenField} {row other : Row}
      (hfields : Gathers fragments selections fields)
      (hplain : ∀ field ∈ fields, field.name ≠ "__typename" →
        entity.relation? field.name = none →
          (Named.find? field.name row).getD .null = (Named.find? field.name other).getD .null)
      (hrelation : ∀ field ∈ fields, field.name ≠ "__typename" → ∀ relation,
        entity.relation? field.name = some relation →
          Alike registry fragments (registry.entity relation.target) field.selections
            ((Named.find? field.key row).getD .null) ((Named.find? field.key other).getD .null)) :
      Alike registry fragments entity selections (.obj row) (.obj other)
  | list {entity : Entity} {selections : List Selection} {items others : List Json}
      (hlength : items.length = others.length)
      (hitems : ∀ i (hi : i < items.length) (hi' : i < others.length),
        Alike registry fragments entity selections items[i] others[i]) :
      Alike registry fragments entity selections (.arr items) (.arr others)

variable {registry : Registry} {fragments : Fragments} {entity : Entity}
  {selections : List Selection} {fields : List WrittenField} {row other : Row}

/-- Where a field reads a row: a relation under its key, and a plain field under its name. -/
def readName (entity : Entity) (field : WrittenField) : String :=
  if (entity.relation? field.name).isSome then field.key else field.name

/-- **A row with something else in a place that no field reads is alike.** -/
theorem Alike.put {name : String} (hfields : Gathers fragments selections fields)
    (hunread : ∀ field ∈ fields, field.name ≠ "__typename" → readName entity field ≠ name)
    (row : Row) (value : Json) :
    Alike registry fragments entity selections (.obj row) (.obj (Named.put name value row)) := by
  refine .row hfields ?_ ?_
  · intro field hfield hself hplain
    have hne : field.name ≠ name := by simpa [readName, hplain] using hunread field hfield hself
    rw [Named.find?_put_of_ne hne]
  · intro field hfield hself relation hrelation
    have hne : field.key ≠ name := by simpa [readName, hrelation] using hunread field hfield hself
    rw [Named.find?_put_of_ne hne]
    exact .same _

/-! ### One field -/

/-- What a field answers of a row. -/
def answer (registry : Registry) (fragments : Fragments) (entity : Entity) (row : Row)
    (field : WrittenField) : Except PlanError Json :=
  if field.name = "__typename" then .ok (.str entity.name)
  else match entity.relation? field.name with
    | some relation =>
      ofValue registry (registry.entity relation.target)
        (fun _ => fragments.expand field.selections) ((Named.find? field.key row).getD .null)
    | none => .ok ((Named.find? field.name row).getD .null)

theorem answer_self {field : WrittenField} (h : field.name = "__typename") :
    answer registry fragments entity row field = .ok (.str entity.name) :=
  if_pos h

theorem answer_plain {field : WrittenField} (hself : field.name ≠ "__typename")
    (h : entity.relation? field.name = none) :
    answer registry fragments entity row field = .ok ((Named.find? field.name row).getD .null) := by
  rw [answer, if_neg hself, h]

theorem answer_relation {field : WrittenField} {relation : Relation}
    (hself : field.name ≠ "__typename") (h : entity.relation? field.name = some relation) :
    answer registry fragments entity row field
      = ofValue registry (registry.entity relation.target)
          (fun _ => fragments.expand field.selections)
          ((Named.find? field.key row).getD .null) := by
  rw [answer, if_neg hself, h]

/-- Each field puts what it answers under its key. -/
theorem shapeFields_listed (field : WrittenField) (output : List (String × Json)) :
    shapeFields registry entity row output (fragments.listed (field :: fields))
      = (do
        let value ← answer registry fragments entity row field
        shapeFields registry entity row (Named.put field.key value output)
          (fragments.listed fields)) := by
  rw [Fragments.listed, shapeFields, answer]
  by_cases hself : field.name = "__typename"
  · rw [if_pos hself, if_pos hself]
    rfl
  · rw [if_neg hself, if_neg hself]
    cases entity.relation? field.name with
    | none => rfl
    | some relation =>
        show _ = (ofValue registry (registry.entity relation.target)
          (fun _ => fragments.expand field.selections)
          ((Named.find? field.key row).getD .null) >>= _)
        unfold WrittenField.key
        cases Named.find? (responseKey field.name field.asName) row with
        | none => rfl
        | some value => rfl

/-- **A row in the shape of fields has what each of them answers**, the last one of a key where the
first one stands. -/
theorem shapeFields_ok {shown : WrittenField → Json}
    (h : ∀ field ∈ fields, answer registry fragments entity row field = .ok (shown field)) :
    shapeFields registry entity row [] (fragments.listed fields)
      = .ok (Named.ofList (fields.map fun field => (field.key, shown field))) := by
  have hput : ∀ output, shapeFields registry entity row output (fragments.listed fields)
      = .ok ((fields.map fun field => (field.key, shown field)).foldl
          (fun map entry => Named.put entry.1 entry.2 map) output) := by
    induction fields with
    | nil => exact fun output => rfl
    | cons field rest ih =>
        intro output
        rw [shapeFields_listed, h field List.mem_cons_self]
        exact ih (fun other hother => h other (List.mem_cons_of_mem _ hother)) _
  exact hput []

/-- Rows of which every field answers the same are shaped to the same. -/
theorem shapeFields_congr
    (h : ∀ field ∈ fields, answer registry fragments entity row field
      = answer registry fragments entity other field) (output : List (String × Json)) :
    shapeFields registry entity row output (fragments.listed fields)
      = shapeFields registry entity other output (fragments.listed fields) := by
  induction fields generalizing output with
  | nil => rfl
  | cons field rest ih =>
      rw [shapeFields_listed, shapeFields_listed, h field List.mem_cons_self]
      exact congrArg _ (funext fun value =>
        ih (fun other hother => h other (List.mem_cons_of_mem _ hother)) _)

/-! ### Values of all kinds -/

variable {shape : Row → Except PlanError Json} {items others : List Json}

theorem shapeItems_ok :
    shapeItems shape items = .ok others
      ↔ items.length = others.length ∧ ∀ i (hi : i < items.length) (hi' : i < others.length),
          shapeRows shape items[i] = .ok others[i] := by
  have hpairs : shapeItems shape items = .ok others
      ↔ List.Forall₂ (fun item other => shapeRows shape item = .ok other) items others := by
    induction items generalizing others with
    | nil =>
        rw [List.forall₂_nil_left_iff]
        exact ⟨fun h => (Except.ok.inj h).symm, fun h => congrArg Except.ok h.symm⟩
    | cons item rest ih =>
        rw [shapeItems, Outcome.bind_ok, List.forall₂_cons_left_iff]
        constructor
        · rintro ⟨shown, hshown, h⟩
          obtain ⟨more, hmore, heq⟩ := Outcome.bind_ok.mp h
          exact ⟨shown, more, hshown, ih.mp hmore, (Outcome.pure_ok.mp heq).symm⟩
        · rintro ⟨shown, more, hshown, hmore, rfl⟩
          exact ⟨shown, hshown, Outcome.bind_ok.mpr ⟨more, ih.mpr hmore, rfl⟩⟩
  rw [hpairs, List.forall₂_iff_get]
  rfl

/-- Items that are shaped to the same are shaped to the same list. -/
theorem shapeItems_congr (hlength : items.length = others.length)
    (hitems : ∀ i (hi : i < items.length) (hi' : i < others.length),
      shapeRows shape items[i] = shapeRows shape others[i]) :
    shapeItems shape items = shapeItems shape others := by
  induction items generalizing others with
  | nil => rw [List.eq_nil_of_length_eq_zero hlength.symm]
  | cons item rest ih =>
      obtain _ | ⟨first, more⟩ := others
      · exact absurd hlength (Nat.succ_ne_zero _)
      · have hfirst := hitems 0 (Nat.succ_pos _) (Nat.succ_pos _)
        have hrest := ih (Nat.succ.inj hlength) fun i hi hi' =>
          hitems (i + 1) (Nat.succ_lt_succ hi) (Nat.succ_lt_succ hi')
        rw [List.getElem_cons_zero, List.getElem_cons_zero] at hfirst
        rw [shapeItems, shapeItems, hfirst, hrest]

theorem ofValue_obj (selected : Unit → Selected) (row : Row) :
    ofValue registry entity selected (.obj row)
      = (shapeFields registry entity row [] (selected ())).map .obj := by
  rw [ofValue, shapeRows]
  rfl

theorem ofValue_arr (selected : Unit → Selected) (items : List Json) :
    ofValue registry entity selected (.arr items)
      = (shapeItems (ofRow registry entity selected) items).map .arr := by
  rw [ofValue, shapeRows]
  cases shapeItems (ofRow registry entity selected) items with
  | error error => rfl
  | ok shown => rfl

/-! ### Whole values -/

/-- **Values that are alike are shaped to the same.** -/
theorem Alike.ofValue_eq {value other : Json}
    (h : Alike registry fragments entity selections value other)
    (hacyclic : fragments.Acyclic selections) :
    ofValue registry entity (fun _ => fragments.expand selections) value
      = ofValue registry entity (fun _ => fragments.expand selections) other := by
  induction h with
  | same value => rfl
  | @row entity selections fields row other hfields hplain _ ih =>
      have hanswer : ∀ field ∈ fields, answer registry fragments entity row field
          = answer registry fragments entity other field := by
        intro field hfield
        by_cases hself : field.name = "__typename"
        · rw [answer_self hself, answer_self hself]
        · cases hrelation : entity.relation? field.name with
          | none =>
              rw [answer_plain hself hrelation, answer_plain hself hrelation,
                hplain field hfield hself hrelation]
          | some relation =>
              rw [answer_relation hself hrelation, answer_relation hself hrelation]
              exact ih field hfield hself relation hrelation
                (hfields.acyclic hacyclic field hfield)
      rw [ofValue_obj, ofValue_obj, hfields.expand_eq hacyclic, shapeFields_congr hanswer]
  | list hlength _ ih =>
      rw [ofValue_arr, ofValue_arr,
        shapeItems_congr hlength fun i hi hi' => ih i hi hi' hacyclic]

/-- What a row shows, if what is selected below its relations is shown. -/
theorem exposes_row (hacyclic : fragments.Acyclic selections)
    (hfields : Gathers fragments selections fields)
    (hbelow : ∀ field ∈ fields, field.name ≠ "__typename" → ∀ relation,
      entity.relation? field.name = some relation → ∀ value, ∃ shown,
        ofValue registry (registry.entity relation.target)
            (fun _ => fragments.expand field.selections) value = .ok shown
          ∧ Exposes registry fragments (registry.entity relation.target)
            field.selections value shown)
    (row : Row) :
    ∃ shown, ofValue registry entity (fun _ => fragments.expand selections) (.obj row) = .ok shown
      ∧ Exposes registry fragments entity selections (.obj row) shown := by
  let shown : WrittenField → Json := fun field =>
    (answer registry fragments entity row field).toOption.getD .null
  have hshown : ∀ {field value}, answer registry fragments entity row field = .ok value →
      shown field = value := by
    intro field value h
    show (answer registry fragments entity row field).toOption.getD .null = value
    rw [h]
    rfl
  have hrelation : ∀ field ∈ fields, field.name ≠ "__typename" → ∀ relation,
      entity.relation? field.name = some relation →
        answer registry fragments entity row field = .ok (shown field)
          ∧ Exposes registry fragments (registry.entity relation.target) field.selections
            ((Named.find? field.key row).getD .null) (shown field) := by
    intro field hfield hself relation hrelation
    obtain ⟨value, hvalue, hexposes⟩ := hbelow field hfield hself relation hrelation
      ((Named.find? field.key row).getD .null)
    rw [← answer_relation hself hrelation] at hvalue
    rw [hshown hvalue]
    exact ⟨hvalue, hexposes⟩
  have hanswer : ∀ field ∈ fields,
      answer registry fragments entity row field = .ok (shown field) := by
    intro field hfield
    by_cases hself : field.name = "__typename"
    · rw [hshown (answer_self hself), answer_self hself]
    · cases hplain : entity.relation? field.name with
      | none => rw [hshown (answer_plain hself hplain), answer_plain hself hplain]
      | some relation => exact (hrelation field hfield hself relation hplain).1
  refine ⟨.obj (Named.ofList (fields.map fun field => (field.key, shown field))), ?_, ?_⟩
  · rw [ofValue_obj, hfields.expand_eq hacyclic, shapeFields_ok hanswer]
    rfl
  · refine .row hfields ?_ ?_ ?_ ?_ fun field hfield hself relation h =>
      (hrelation field hfield hself relation h).2
    · rw [Named.names_ofList, Named.names, List.map_map]
      rfl
    · rintro field ⟨before, after, rfl, hlast⟩
      rw [List.map_append, List.map_cons]
      refine Named.find?_ofList_last ?_ (shown field)
      rw [Named.names, List.map_map]
      exact hlast
    · exact fun field _ hself => hshown (answer_self hself)
    · exact fun field _ hself hplain => hshown (answer_plain hself hplain)

/-- What a value shows, if its rows are shown. -/
theorem exposes_value
    (hrows : ∀ row, ∃ shown,
      ofValue registry entity (fun _ => fragments.expand selections) (.obj row) = .ok shown
        ∧ Exposes registry fragments entity selections (.obj row) shown) (value : Json) :
    ∃ shown, ofValue registry entity (fun _ => fragments.expand selections) value = .ok shown
      ∧ Exposes registry fragments entity selections value shown := by
  induction value using Json.inductionOn with
  | null => exact ⟨_, rfl, .itself (by simp) (by simp)⟩
  | bool b => exact ⟨_, rfl, .itself (by simp) (by simp)⟩
  | num n => exact ⟨_, rfl, .itself (by simp) (by simp)⟩
  | str s => exact ⟨_, rfl, .itself (by simp) (by simp)⟩
  | obj row _ => exact hrows row
  | arr items ih =>
      choose! shown hshown using ih
      refine ⟨.arr (items.map shown), ?_, .list (List.length_map shown).symm ?_⟩
      · rw [ofValue_arr]
        refine Outcome.map_ok.mpr ⟨_, shapeItems_ok.mpr ⟨(List.length_map shown).symm, ?_⟩, rfl⟩
        intro i hi hi'
        rw [List.getElem_map]
        exact (hshown _ (List.getElem_mem hi)).1
      · intro i hi hi'
        rw [List.getElem_map]
        exact (hshown _ (List.getElem_mem hi)).2

/-- **A shape shows what is selected and nothing else.**  Where fragments run in no circle and those
that relations lead to are there, every value has a shape, which shows of each row just the keys
that are selected, and every value that is alike has the same one. -/
theorem ofValue_exposes (hacyclic : fragments.Acyclic selections)
    (hresolved : ∀ owner level, LeadsTo registry fragments owner level entity selections →
      fragments.Resolved level) (value : Json) :
    ∃ shown, ofValue registry entity (fun _ => fragments.expand selections) value = .ok shown
      ∧ Exposes registry fragments entity selections value shown
      ∧ ∀ other, Alike registry fragments entity selections value other →
          ofValue registry entity (fun _ => fragments.expand selections) other = .ok shown := by
  have hexposes : ∀ value, ∃ shown,
      ofValue registry entity (fun _ => fragments.expand selections) value = .ok shown
        ∧ Exposes registry fragments entity selections value shown := by
    induction hacyclic using Fragments.Acyclic.levels generalizing entity with
    | step selections hacyclic ih =>
        obtain ⟨fields, hfields⟩ :=
          hacyclic.gathers_of_resolved (hresolved entity selections .here)
        refine exposes_value (exposes_row hacyclic hfields ?_)
        intro field hfield _ relation hrelation
        refine ih fields hfields field hfield fun owner level hleads => ?_
        exact hresolved owner level (.onward (hfields.mem_iff.mp hfield) hrelation hleads)
  obtain ⟨shown, hshown, h⟩ := hexposes value
  exact ⟨shown, hshown, h, fun other halike => (halike.ofValue_eq hacyclic).symm.trans hshown⟩

/-! ### An author with drafts -/

namespace Drafts

open Plan (Posts.planning Entries.fragments Entries.selections Entries.acyclic)

/-- An author under some id, by which posts are joined, with one draft and a comment on it. -/
def author (id : Int) : Row := [
  ("id", .num (.int id)), ("posts", .arr []),
  ("drafts", .arr [.obj [("author_id", .num (.int 1)), ("title", .str "A"),
    ("remarks", .arr [.obj [("text", .str "good"), ("post_id", .num (.int 7))]])]])]

def shown : Json := .obj [
  ("posts", .arr []),
  ("drafts", .arr [.obj [("title", .str "A"), ("remarks", .arr [.obj [("text", .str "good")]])]])]

theorem gathers : Gathers Entries.fragments Entries.selections
    [⟨"posts", none, [("published", .boolean true)], [], [.spread "Entry" []]⟩,
      ⟨"posts", some "drafts", [("published", .boolean false)], [], [.spread "Entry" []]⟩] :=
  .field (.spread rfl (.field .nil) .nil)

theorem resolved : ∀ owner level,
    LeadsTo Posts.planning.registry Entries.fragments owner level
      (Posts.planning.registry.entity 0) Entries.selections → Entries.fragments.Resolved level := by
  have hcompiled : (Plan.Entries.compiled Entries.selections).map
      (fun load => load.relations.map RelationNode.key) = .ok ["posts", "drafts"] := rfl
  obtain ⟨load, hload, -⟩ := Outcome.map_ok.mp hcompiled
  have hcompilable := Plan.compile_ok_iff.mp ⟨load, hload⟩
  exact ((Selected.compilable_iff_wellFormed (Entries.acyclic _)).mp hcompilable).resolved

/-- The id is neither a plain field nor the key of a relation. -/
theorem alike (id other : Int) : Alike Posts.planning.registry Entries.fragments
    (Posts.planning.registry.entity 0) Entries.selections (.obj (author id))
    (.obj (author other)) := by
  have hput : author other = Named.put "id" (.num (.int other)) (author id) := rfl
  rw [hput]
  refine .put gathers ?_ _ _
  decide

end Drafts

/-- The posts of an author are shown the same whatever the id that they were joined by. -/
theorem ofValue_exposes_drafts :
    (Plan.Entries.fragments.Acyclic Plan.Entries.selections
        ∧ ∀ owner level, LeadsTo Plan.Posts.planning.registry Plan.Entries.fragments owner level
          (Plan.Posts.planning.registry.entity 0) Plan.Entries.selections →
            Plan.Entries.fragments.Resolved level)
      ∧ Exposes Plan.Posts.planning.registry Plan.Entries.fragments
        (Plan.Posts.planning.registry.entity 0) Plan.Entries.selections
        (.obj (Drafts.author 1)) Drafts.shown
      ∧ ∀ id, ofValue Plan.Posts.planning.registry (Plan.Posts.planning.registry.entity 0)
          (fun _ => Plan.Entries.fragments.expand Plan.Entries.selections)
          (.obj (Drafts.author id)) = .ok Drafts.shown := by
  have hacyclic := Plan.Entries.acyclic Plan.Entries.selections
  obtain ⟨shown, hshown, hexposes, halike⟩ :=
    ofValue_exposes hacyclic Drafts.resolved (.obj (Drafts.author 1))
  obtain rfl : Drafts.shown = shown := Except.ok.inj hshown
  exact ⟨⟨hacyclic, Drafts.resolved⟩, hexposes, fun id => halike _ (Drafts.alike 1 id)⟩

end Shaped

end GraphFetch

/-
Compiled loads, read back from their expressions.

The names of relations and the keys of their selections come from a document, and a name
of a document is a name of an expression.  The references are made from the beginnings in
the settings, and those are only checked for marks that would cut a name in two.  The
colon is such a mark since selections have aliases, and is let through; so is every
character that is neither a mark nor part of a name.  So a load is read back exactly when
its references are names, which they are when the two beginnings consist of the
characters of names.
-/
import GraphFetch.Proofs.Database.Runs
import GraphFetch.Proofs.Document.Names
import GraphFetch.Proofs.Engine.Requests
import GraphFetch.Proofs.Expression.RoundTrip
import GraphFetch.Proofs.Plan.References

namespace GraphFetch

open RelationNode (AllValid allReferences)

/-! ### Names -/

/-- A name of a document is a name of an expression. -/
theorem Expression.isName_of_document {name : String} (h : Document.IsName name) :
    Expression.IsName name := by
  refine ⟨h.1, ?_⟩
  intro c hc
  have hchar : Document.Reader.isNameChar c = true := h.2 c hc
  unfold Document.Reader.isNameChar Document.Reader.isNameStart at hchar
  unfold Expression.isNameChar Char.isAlphanum
  simp only [Bool.or_eq_true] at hchar ⊢
  tauto

/-- Whether a beginning of names consists of characters that names have. -/
def Plan.Readable (prefixes : FilterPrefixes) : Prop :=
  (∀ c ∈ prefixes.projection.toList, Expression.isNameChar c = true)
    ∧ ∀ c ∈ prefixes.argument.toList, Expression.isNameChar c = true

namespace Plan

theorem checkPrefixes_default : Settings.checkPrefixes {} = .ok () := by decide +kernel

theorem readable_default : Readable {} :=
  ⟨List.all_eq_true.mp (by decide +kernel), List.all_eq_true.mp (by decide +kernel)⟩

theorem readable_lead {prefixes : FilterPrefixes} (h : Readable prefixes) {lead : String}
    (hlead : IsLead prefixes lead) : ∀ c ∈ lead.toList, Expression.isNameChar c = true := by
  rcases hlead with rfl | rfl
  · exact h.1
  · exact h.2

/-- A readable beginning with a number is a name. -/
theorem isName_numbered {lead : String}
    (hlead : ∀ c ∈ lead.toList, Expression.isNameChar c = true) (i : Nat) :
    Expression.IsName (lead ++ toString i) := by
  have hdigits : (toString i).toList = Nat.toDigits 10 i := by
    rw [Nat.toString_eq_repr, Nat.toList_repr]
  have hchars : ∀ c ∈ (toString i).toList, Expression.isNameChar c = true := by
    intro c hc
    have hdigit : c.isDigit = true :=
      Nat.isDigit_of_mem_toDigits (by omega) (by omega) (hdigits ▸ hc)
    simp [Expression.isNameChar, Char.isAlphanum, hdigit]
  constructor
  · rw [String.toList_append, hdigits]
    simp [Nat.toDigits_ne_nil]
  · intro c hc
    rw [String.toList_append] at hc
    rcases List.mem_append.mp hc with h | h
    · exact hlead c h
    · exact hchars c h

/-! ### Nodes -/

variable {context : PlanContext}

/-- The node of a relation is valid exactly when its references are names and the nodes below it are
valid. -/
theorem relationNode_valid {relation : Relation} {key : String} {references : List String}
    {below : List RelationNode} (hname : Expression.IsName relation.name)
    (hkey : Expression.IsName key) :
    (relationNode relation key references below).Valid
      ↔ (∀ reference ∈ references, Expression.IsName reference) ∧ AllValid below := by
  have halias : ∀ other ∈ (relationNode relation key references below).asName,
      Expression.IsName other := by
    intro other hother
    unfold relationNode at hother
    dsimp only at hother
    split at hother
    · exact absurd hother (by simp)
    · obtain rfl := Option.some.inj (Option.mem_def.mp hother)
      exact hkey
  constructor
  · intro h
    exact ⟨h.2.2.1, h.2.2.2⟩
  · intro h
    exact ⟨hname, halias, h.1, h.2⟩

/-- Nodes that mirror a selection are valid exactly when their references are names. -/
theorem Mirrors.allValid_iff (hbuilt : context.registry.Built) {modifiers : ModifierTable}
    {entity : Entity} {selected : Selected} {nodes : List RelationNode}
    (h : Mirrors context modifiers entity selected nodes)
    (hentity : entity.Registered context.registry) (hnamed : selected.WellNamed) :
    AllValid nodes ↔ ∀ name ∈ allReferences nodes, Expression.IsName name := by
  induction h with
  | none => simp [AllValid, allReferences]
  | plain hname hrest ih => exact ih hentity hnamed.2.2.2
  | @relation entity name asName arguments children rest nodes below relation references _ _ hname
      _ _ _ _ _ ihBelow ihRest =>
      obtain ⟨hname', hasName, hchildren, hrest⟩ := hnamed
      have hown : relation.name = name := hentity.name_of_relation? hname
      have hvalid : (relationNode relation (responseKey name asName) references below).Valid
          ↔ (∀ reference ∈ references, Expression.IsName reference) ∧ AllValid below :=
        relationNode_valid (hown ▸ Expression.isName_of_document hname')
          (Expression.isName_of_document (responseKey_isName hname' hasName))
      rw [AllValid, hvalid, ihBelow (hentity.target hbuilt hname) hchildren, ihRest hentity hrest,
        allReferences, List.forall_mem_append, relationNode, RelationNode.references,
        List.forall_mem_append]

end Plan

/-! ### Runs of a load -/

namespace Database

/-- Whether a run does not end in an expression that cannot be read. -/
def Reads {α : Type} (run : Run α) : Prop :=
  ∀ error, run.result ≠ .error (.expression error)

theorem Reads.done {α : Type} (value : α) : Reads (Run.done value) := fun _ h => nomatch h

theorem Reads.pure {α : Type} (value : α) : Reads (Pure.pure value : Run α) :=
  fun _ h => nomatch h

theorem Reads.bind {α β : Type} {run : Run α} {next : α → Run β} (h : Reads run)
    (hnext : ∀ value, Reads (next value)) : Reads (run >>= next) := by
  intro error hresult
  have hrun : (run.andThen next).result = .error (.expression error) := hresult
  unfold Run.andThen at hrun
  cases hvalue : run.result with
  | ok value =>
      rw [hvalue] at hrun
      exact hnext value error hrun
  | error fault =>
      rw [hvalue] at hrun
      have hfault : fault = .expression error := Except.error.inj hrun
      exact h error (hfault ▸ hvalue)

theorem reads_select (database : Database) (query : Query) : Reads (database.select query) := by
  unfold select
  cases bindConditions query.skipsUndefined query.conditions with
  | error column => exact fun _ h => nomatch h
  | ok bound => exact Reads.bind (fun _ h => nomatch h) fun _ => Reads.pure _

theorem reads_links (database : Database) (join : Join) (keys : List Json) :
    Reads (database.links join keys) := by
  unfold Database.links
  cases join.through with
  | none => exact Reads.done _
  | some through => exact Reads.bind (fun _ h => nomatch h) fun _ => Reads.pure _

section

variable {database : Database} {modifiers : ModifierTable} {skipsUndefined : Bool}

mutual

theorem reads_loadNode : ∀ (node : RelationNode) (entity : Entity) (rows : List Row),
    Reads (loadNode database modifiers skipsUndefined entity node rows)
  | ⟨name, asName, references, children⟩, entity, rows => by
    rw [loadNode]
    cases entity.relation? name with
    | none => exact fun _ h => nomatch h
    | some relation =>
        dsimp only
        cases modifiedQuery modifiers _ references with
        | error unknown => exact fun _ h => nomatch h
        | ok query =>
            refine (reads_links _ _ _).bind fun links => ?_
            refine (reads_select _ _).bind fun found => ?_
            exact (reads_loadNodes children _ found).bind fun related => Reads.pure _
  termination_by node => sizeOf node

theorem reads_loadNodes : ∀ (nodes : List RelationNode) (entity : Entity) (rows : List Row),
    Reads (loadNodes database modifiers skipsUndefined entity nodes rows)
  | [], _, rows => by
    rw [loadNodes]
    exact Reads.done rows
  | node :: rest, entity, rows => by
    rw [loadNodes]
    exact (reads_loadNode node entity rows).bind fun between => reads_loadNodes rest entity between
  termination_by nodes => sizeOf nodes

end

/-- A run fails with an expression error only if the expression cannot be read. -/
theorem reads_execute {query : Query}
    (h : ∀ load, query.eager = some load → ∃ nodes, Expression.parse load.expression = .ok nodes) :
    Reads (database.execute query) := by
  unfold execute
  refine (reads_select database query).bind fun rows => ?_
  cases heager : query.eager with
  | none => exact Reads.pure _
  | some load =>
      obtain ⟨nodes, hnodes⟩ := h load heager
      dsimp only
      rw [hnodes]
      exact (reads_loadNodes nodes _ rows).bind fun loaded => Reads.pure _

end

end Database

/-! ### Settings that were read -/

theorem Settings.checkPrefixes_of_ofToml {text : String} {settings : Settings}
    (h : Settings.ofToml text = .ok settings) :
    Settings.checkPrefixes settings.query.filterPrefixes = .ok () := by
  unfold Settings.ofToml at h
  cases htoml : Toml.parse? text with
  | none => simp [htoml, throw, throwThe, MonadExceptOf.throw] at h
  | some toml =>
      simp only [htoml] at h
      obtain ⟨decoded, -, h⟩ := Outcome.bind_ok.mp h
      obtain ⟨⟨⟩, hcheck, h⟩ := Outcome.bind_ok.mp h
      obtain rfl := Outcome.pure_ok.mp h
      exact hcheck

namespace Plan

section Compiled

variable {entity : Entity} {selected : Selected} {load : EagerLoad}

/-- A compiled load is read back exactly when its references are names. -/
theorem compile_parse_iff (hbuilt : context.registry.Built)
    (hprefixes : Settings.checkPrefixes context.settings.filterPrefixes = .ok ())
    (hentity : entity ∈ context.registry.entities) (hnamed : selected.WellNamed)
    (hload : compile context entity selected = .ok load) :
    Expression.parse load.expression = .ok load.relations
      ↔ ∀ name ∈ Named.names load.modifiers, Expression.IsName name := by
  obtain ⟨naming, -, -, hnames, hmirrors⟩ := compile_numbered hprefixes hload
  rw [hnames, EagerLoad.expression, Expression.parse_render_iff]
  exact hmirrors.allValid_iff hbuilt (hbuilt entity hentity) hnamed

/-- A compiled load is read back if the two beginnings consist of characters of names. -/
theorem compile_parse (hbuilt : context.registry.Built)
    (hprefixes : Settings.checkPrefixes context.settings.filterPrefixes = .ok ())
    (hreadable : Readable context.settings.filterPrefixes)
    (hentity : entity ∈ context.registry.entities) (hnamed : selected.WellNamed)
    (hload : compile context entity selected = .ok load) :
    Expression.parse load.expression = .ok load.relations := by
  refine (compile_parse_iff hbuilt hprefixes hentity hnamed hload).mpr ?_
  obtain ⟨naming, hnumbered, hmodifiers, -, -⟩ := compile_numbered hprefixes hload
  intro name hname
  rw [← hmodifiers] at hname
  obtain ⟨lead, i, hlead, -, rfl⟩ := hnumbered.numbered name hname
  exact isName_numbered (readable_lead hreadable hlead) i

end Compiled

/-- **What the compiler emits is read back exactly when its references are names.**  They are if
the two beginnings consist of characters of names, and then no run of the load ends in an
expression that cannot be read. -/
theorem compile_read_back {text : String} {settings : Settings}
    (hsettings : Settings.ofToml text = .ok settings) {registrations : List Registration}
    {registry : Registry} (hregistry : Registry.build registrations = .ok registry)
    {entity : Entity} (hentity : entity ∈ registry.entities) {bindings : Variables}
    {selected : Selected} (hnamed : selected.WellNamed) {load : EagerLoad}
    (hload : compile ⟨registry, bindings, settings.query⟩ entity selected = .ok load) :
    (Expression.parse load.expression = .ok load.relations
        ↔ ∀ name ∈ Named.names load.modifiers, Expression.IsName name)
      ∧ (Readable settings.query.filterPrefixes →
          Expression.parse load.expression = .ok load.relations
            ∧ ∀ (database : Database) (query : Query), query.eager = some load →
                ∀ error, (database.execute query).result ≠ .error (.expression error)) := by
  have hbuilt := Registry.build_built hregistry
  have hprefixes := Settings.checkPrefixes_of_ofToml hsettings
  refine ⟨compile_parse_iff hbuilt hprefixes hentity hnamed hload, ?_⟩
  intro hreadable
  have hparsed := compile_parse hbuilt hprefixes hreadable hentity hnamed hload
  refine ⟨hparsed, ?_⟩
  intro database query heager error
  refine Database.reads_execute ?_ error
  intro other hother
  obtain rfl : load = other := Option.some.inj (heager.symm.trans hother)
  exact ⟨_, hparsed⟩

/-! ### Posts under other beginnings -/

namespace Posts

/-- Settings whose projections begin with a text of their own. -/
def beginning (projection : String) : Settings :=
  { query := { filterPrefixes := { projection := projection } } }

/-- The text that gives these settings. -/
def settingsText (projection : String) : String :=
  "[query.filter_prefixes]\nprojection = \"" ++ projection ++ "\"\n"

/-- The load of published posts under these settings. -/
def compiled (projection : String) : Except PlanError EagerLoad :=
  compile ⟨planning.registry, [], (beginning projection).query⟩
    (planning.registry.entity 0) selected

theorem planning_built : Registry.build [Blog.author, Blog.post, Blog.comment, Blog.tag]
    = .ok planning.registry := rfl

theorem author_mem : planning.registry.entity 0 ∈ planning.registry.entities :=
  List.mem_cons_self

/-- The names that the selection consists of. -/
def names : List String := ["posts", "title", "comments", "remarks", "text"]

theorem isName_names : ∀ name ∈ names, Document.IsName name := by
  have hchecked : names.all (fun name =>
      !name.toList.isEmpty && name.toList.all Document.Reader.isNameChar) = true := by
    decide +kernel
  intro name hname
  have hown := List.all_eq_true.mp hchecked name hname
  rw [Bool.and_eq_true] at hown
  exact ⟨by simpa using hown.1, List.all_eq_true.mp hown.2⟩

theorem selected_wellNamed : selected.WellNamed := by
  have hnames := isName_names
  simp only [names, List.mem_cons, List.not_mem_nil, or_false, forall_eq_or_imp, forall_eq]
    at hnames
  simp [selected, post, Selected.WellNamed, hnames]

end Posts

/-- A beginning of letters is read back. -/
theorem compile_read_back_letters : ∃ load, Posts.compiled "cols" = .ok load
    ∧ Expression.parse load.expression = .ok load.relations
    ∧ ∀ (database : Database) (query : Query), query.eager = some load →
        ∀ error, (database.execute query).result ≠ .error (.expression error) := by
  have hsettings : Settings.ofToml (Posts.settingsText "cols") = .ok (Posts.beginning "cols") := by
    have htoml : (Settings.ofToml (Posts.settingsText "cols")).toOption
        = some (Posts.beginning "cols") := by decide +kernel
    revert htoml
    cases Settings.ofToml (Posts.settingsText "cols") <;> simp [Except.toOption]
  have hcompiled : (Posts.compiled "cols").map (fun _ => ()) = .ok () := rfl
  obtain ⟨load, hload, -⟩ := Outcome.map_ok.mp hcompiled
  have hread := compile_read_back hsettings Posts.planning_built Posts.author_mem
    Posts.selected_wellNamed hload
  have hreadable : Readable (Posts.beginning "cols").query.filterPrefixes :=
    ⟨List.all_eq_true.mp (by decide +kernel), List.all_eq_true.mp (by decide +kernel)⟩
  exact ⟨load, hload, hread.2 hreadable⟩

/-- **A beginning that ends in a colon is accepted, and nothing it names is read back.** -/
theorem compile_not_read_back :
    (Settings.ofToml (Posts.settingsText "s:")).toOption = some (Posts.beginning "s:")
      ∧ ∃ load, Posts.compiled "s:" = .ok load
        ∧ load.expression = "[posts(s:0, f1).remarks:comments(s:2)]"
        ∧ (Expression.parse load.expression).isOk = false := by
  refine ⟨by decide +kernel, ?_⟩
  have hcompiled : (Posts.compiled "s:").map EagerLoad.expression
      = .ok "[posts(s:0, f1).remarks:comments(s:2)]" := rfl
  obtain ⟨load, hload, hexpression⟩ := Outcome.map_ok.mp hcompiled
  refine ⟨load, hload, hexpression, ?_⟩
  rw [hexpression]
  decide +kernel

end Plan

end GraphFetch

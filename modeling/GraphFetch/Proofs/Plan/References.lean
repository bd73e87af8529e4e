/-
Modifiers of a compiled load and the nodes that refer to them.

One counter names the modifiers of all levels, and one table holds them.  A name is a
beginning and a number.  Neither of the two beginnings begins the other, so the number
and the beginning can be told from the name, and a name made from a number that was not
used yet is not in the table.  Everything else follows from that: entries are only ever
added at the end, each right when its node gets the reference to it, and what a node
refers to stays what it was.
-/
import GraphFetch.Blog.Schema
import GraphFetch.Database.Load
import GraphFetch.Plan.Compile
import GraphFetch.Proofs.Schema.Registered
import GraphFetch.Settings.Reader

namespace GraphFetch

namespace RelationNode

mutual

/-- The references of a node and then those of the nodes below it. -/
def references : RelationNode → List String
  | ⟨_, _, modifiers, children⟩ => modifiers ++ allReferences children

/-- The references of nodes and those below them, each node before what is below it. -/
def allReferences : List RelationNode → List String
  | [] => []
  | node :: rest => references node ++ allReferences rest

end

end RelationNode

open RelationNode (allReferences)

namespace Plan

/-! ### Beginnings of names -/

/-- The two beginnings that names are made from. -/
def IsLead (prefixes : FilterPrefixes) (lead : String) : Prop :=
  lead = prefixes.projection ∨ lead = prefixes.argument

/-- Whether the beginning and the number can be told from every name. -/
def Tellable (prefixes : FilterPrefixes) : Prop :=
  ∀ lead other, IsLead prefixes lead → IsLead prefixes other →
    ∀ i j : Nat, lead ++ toString i = other ++ toString j → lead = other ∧ i = j

theorem toString_injective {i j : Nat} (h : toString i = toString j) : i = j := by
  have hdigits : Nat.toDigits 10 i = Nat.toDigits 10 j := String.ofList_injective h
  rw [← Nat.ofDigitChars_ten_toDigits (n := i), hdigits, Nat.ofDigitChars_ten_toDigits]

theorem not_prefix_of_checkPrefixes {prefixes : FilterPrefixes}
    (h : Settings.checkPrefixes prefixes = .ok ()) :
    ¬ prefixes.argument.toList <+: prefixes.projection.toList
      ∧ ¬ prefixes.projection.toList <+: prefixes.argument.toList := by
  unfold Settings.checkPrefixes at h
  dsimp only at h
  split at h
  · exact absurd h (by simp)
  · split at h
    · exact absurd h (by simp)
    · split at h
      · exact absurd h (by simp)
      · rename_i hprefix
        simpa using hprefix

/-- Texts with one common end begin one with the other. -/
theorem prefix_of_append_eq {lead other : String} {i j : String}
    (h : lead ++ i = other ++ j) :
    lead.toList <+: other.toList ∨ other.toList <+: lead.toList := by
  have hlists : other.toList ++ j.toList = lead.toList ++ i.toList := by
    rw [← String.toList_append, ← h, String.toList_append]
  have hother : other.toList <+: lead.toList ++ i.toList := ⟨j.toList, hlists⟩
  exact List.prefix_or_prefix_of_prefix (List.prefix_append _ _) hother

/-- **Beginnings that were checked make names that can be told apart.** -/
theorem tellable_of_checkPrefixes {prefixes : FilterPrefixes}
    (h : Settings.checkPrefixes prefixes = .ok ()) : Tellable prefixes := by
  obtain ⟨hargument, hprojection⟩ := not_prefix_of_checkPrefixes h
  intro lead other hlead hother i j heq
  have hlists : lead.toList <+: other.toList ∨ other.toList <+: lead.toList :=
    prefix_of_append_eq heq
  have hsame : lead = other := by
    rcases hlead with rfl | rfl <;> rcases hother with rfl | rfl
    · rfl
    · exact absurd hlists (by simp [hargument, hprojection])
    · exact absurd hlists (by simp [hargument, hprojection])
    · rfl
  subst hsame
  exact ⟨rfl, toString_injective (by simpa using heq)⟩

/-! ### The table of names -/

/-- Whether every name of the table is made from a number that the counter has passed. -/
structure Naming.Numbered (prefixes : FilterPrefixes) (naming : Naming) : Prop where
  distinct : Named.Distinct naming.modifiers
  numbered : ∀ name ∈ Named.names naming.modifiers, ∃ lead i, IsLead prefixes lead
    ∧ i < naming.nextIndex ∧ name = lead ++ toString i

/-- What naming modifiers does: it adds their entries at the end. -/
structure Naming.Adds (prefixes : FilterPrefixes) (before after : Naming)
    (entries : ModifierTable) : Prop where
  modifiers : after.modifiers = before.modifiers ++ entries
  numbered : after.Numbered prefixes

section Naming

variable {prefixes : FilterPrefixes} {naming between after : Naming} {entries more : ModifierTable}

theorem Naming.start_numbered : Naming.start.Numbered prefixes :=
  ⟨Named.Distinct.nil, by simp [Naming.start]⟩

theorem Naming.Numbered.adds_nil (h : naming.Numbered prefixes) : naming.Adds prefixes naming [] :=
  ⟨by simp, h⟩

theorem Naming.Adds.append (h : naming.Adds prefixes between entries)
    (h' : between.Adds prefixes after more) : naming.Adds prefixes after (entries ++ more) :=
  ⟨by rw [h'.modifiers, h.modifiers, List.append_assoc], h'.numbered⟩

/-- A name from the next number is not in the table. -/
theorem Naming.Numbered.fresh (htell : Tellable prefixes) (h : naming.Numbered prefixes)
    {lead : String} (hlead : IsLead prefixes lead) :
    lead ++ toString naming.nextIndex ∉ Named.names naming.modifiers := by
  intro hmem
  obtain ⟨other, i, hother, hlt, heq⟩ := h.numbered _ hmem
  obtain ⟨-, hnumber⟩ := htell lead other hlead hother naming.nextIndex i heq
  omega

/-- **Naming one modifier adds its entry.** -/
theorem Naming.register_adds (htell : Tellable prefixes) (h : naming.Numbered prefixes)
    {lead : String} (hlead : IsLead prefixes lead) (modifier : Edit) :
    naming.Adds prefixes (naming.register lead modifier).2
      [((naming.register lead modifier).1, modifier)] := by
  have hput : (naming.register lead modifier).2.modifiers
      = naming.modifiers ++ [(lead ++ toString naming.nextIndex, modifier)] :=
    Named.put_of_notMem (h.fresh htell hlead) modifier
  refine ⟨hput, h.distinct.put _ _, ?_⟩
  intro name hname
  rw [hput, Named.names_append] at hname
  show ∃ lead i, IsLead prefixes lead ∧ i < naming.nextIndex + 1 ∧ name = lead ++ toString i
  rcases List.mem_append.mp hname with hold | hnew
  · obtain ⟨other, i, hother, hlt, heq⟩ := h.numbered name hold
    exact ⟨other, i, hother, by omega, heq⟩
  · exact ⟨lead, naming.nextIndex, hlead, by omega, by simpa using hnew⟩

theorem Naming.registerSome_adds (htell : Tellable prefixes) (h : naming.Numbered prefixes)
    {lead : String} (hlead : IsLead prefixes lead) (modifier : Option Edit) :
    ∃ entries, naming.Adds prefixes (naming.registerSome lead modifier).2 entries
      ∧ Named.names entries = (naming.registerSome lead modifier).1
      ∧ entries.map Prod.snd = modifier.toList := by
  cases modifier with
  | none => exact ⟨[], h.adds_nil, rfl, rfl⟩
  | some modifier => exact ⟨_, naming.register_adds htell h hlead modifier, rfl, rfl⟩

end Naming

/-! ### One relation -/

variable {context : PlanContext}

theorem nameModifiers_ok {target : Entity} {arguments : List (String × Literal)}
    {children : Selected} {naming after : Naming} {references : List String} :
    nameModifiers context target arguments children naming = .ok (references, after)
      ↔ ∃ projection filters,
          projectionModifier context target children = .ok projection
          ∧ argumentModifier context target arguments = .ok filters
          ∧ let first := naming.registerSome context.settings.filterPrefixes.projection projection
            let second := first.2.registerSome context.settings.filterPrefixes.argument filters
            first.1 ++ second.1 = references ∧ second.2 = after := by
  unfold nameModifiers
  simp only [Outcome.bind_ok, Outcome.pure_ok, Prod.mk.injEq]
  constructor
  · rintro ⟨projection, hprojection, filters, hfilters, h⟩
    exact ⟨projection, filters, hprojection, hfilters, h⟩
  · rintro ⟨projection, filters, hprojection, hfilters, h⟩
    exact ⟨projection, hprojection, filters, hfilters, h⟩

/-- **The modifiers of one relation are its projection and its filters**, each under the reference
at its place. -/
theorem nameModifiers_adds {target : Entity} {arguments : List (String × Literal)}
    {children : Selected} {naming after : Naming} {references : List String}
    (htell : Tellable context.settings.filterPrefixes)
    (hnaming : naming.Numbered context.settings.filterPrefixes)
    (h : nameModifiers context target arguments children naming = .ok (references, after)) :
    ∃ projection filters entries,
      projectionModifier context target children = .ok projection
      ∧ argumentModifier context target arguments = .ok filters
      ∧ naming.Adds context.settings.filterPrefixes after entries
      ∧ Named.names entries = references
      ∧ entries.map Prod.snd = projection.toList ++ filters.toList := by
  obtain ⟨projection, filters, hprojection, hfilters, rfl, rfl⟩ := nameModifiers_ok.mp h
  obtain ⟨first, hfirst, hfirstNames, hfirstEdits⟩ :=
    naming.registerSome_adds htell hnaming (Or.inl rfl) projection
  obtain ⟨second, hsecond, hsecondNames, hsecondEdits⟩ :=
    Naming.registerSome_adds htell hfirst.numbered (Or.inr rfl) filters
  refine ⟨projection, filters, first ++ second, hprojection, hfilters,
    hfirst.append hsecond, ?_, ?_⟩
  · rw [Named.names_append, hfirstNames, hsecondNames]
  · rw [List.map_append, hfirstEdits, hsecondEdits]

/-- References to entries of a table apply what stands there, in order. -/
theorem modifiedQuery_names {modifiers entries : ModifierTable}
    (hdistinct : Named.Distinct modifiers)
    (hsub : entries ⊆ modifiers) (query : Query) :
    Database.modifiedQuery modifiers query (Named.names entries)
      = .ok (query.applyAll (entries.map Prod.snd)) := by
  induction entries generalizing query with
  | nil => rfl
  | cons entry rest ih =>
      obtain ⟨name, edit⟩ := entry
      have hfind : Named.find? name modifiers = some edit :=
        hdistinct.find? (hsub List.mem_cons_self)
      rw [Named.names_cons, Database.modifiedQuery, hfind]
      exact ih (fun entry hentry => hsub (List.mem_cons_of_mem _ hentry)) _

/-! ### Selected fields -/

theorem compileFields_plain {entity : Entity} {name : String} (h : entity.relation? name = none)
    (taken : List String) (asName : Option String) (arguments : List (String × Literal))
    (children : Unit → Selected) (rest : Selected) (naming : Naming) :
    compileFields context entity taken (.field name asName arguments children rest) naming
      = compileFields context entity taken rest naming := by
  rw [compileFields, h]

theorem compileFields_relation {entity : Entity} {name : String} {relation : Relation}
    (h : entity.relation? name = some relation) {taken : List String} {asName : Option String}
    {arguments : List (String × Literal)} {children : Unit → Selected} {rest : Selected}
    {naming after : Naming} {nodes : List RelationNode} :
    compileFields context entity taken (.field name asName arguments children rest) naming
        = .ok (nodes, after)
      ↔ responseKey name asName ∉ taken
        ∧ ∃ references named below between others,
            nameModifiers context (context.registry.entity relation.target) arguments (children ())
              naming = .ok (references, named)
            ∧ compileFields context (context.registry.entity relation.target) [] (children ()) named
              = .ok (below, between)
            ∧ compileFields context entity (responseKey name asName :: taken) rest between
              = .ok (others, after)
            ∧ relationNode relation (responseKey name asName) references below :: others = nodes :=
          by
  rw [compileFields, h]
  by_cases htaken : responseKey name asName ∈ taken
  · simp [htaken]
  · simp only [List.contains_iff_mem, htaken, if_false, not_false_eq_true, true_and]
    simp only [Outcome.bind_ok, Outcome.pure_ok, Prod.mk.injEq, Prod.exists]
    constructor
    · rintro ⟨references, named, hnamed, below, between, hbelow, others, last, hothers, rfl, rfl⟩
      exact ⟨references, named, below, between, others, hnamed, hbelow, hothers, rfl⟩
    · rintro ⟨references, named, below, between, others, hnamed, hbelow, hothers, rfl⟩
      exact ⟨references, named, hnamed, below, between, hbelow, others, after, hothers, rfl, rfl⟩

/-- Nodes that stand for the relations among selected fields, one for one and on every level, such
that the references of each apply the projection of its own selection and then its own filters. -/
inductive Mirrors (context : PlanContext) (modifiers : ModifierTable) :
    Entity → Selected → List RelationNode → Prop
  | none {entity : Entity} : Mirrors context modifiers entity .none []
  | plain {entity : Entity} {name : String} {asName : Option String}
      {arguments : List (String × Literal)} {children : Unit → Selected} {rest : Selected}
      {nodes : List RelationNode} (hname : entity.relation? name = .none)
      (hrest : Mirrors context modifiers entity rest nodes) :
      Mirrors context modifiers entity (.field name asName arguments children rest) nodes
  | relation {entity : Entity} {name : String} {asName : Option String}
      {arguments : List (String × Literal)} {children : Unit → Selected} {rest : Selected}
      {nodes below : List RelationNode} {relation : Relation} {references : List String}
      {projection filters : Option Edit}
      (hname : entity.relation? name = some relation)
      (hprojection : projectionModifier context (context.registry.entity relation.target)
        (children ()) = .ok projection)
      (hfilters : argumentModifier context (context.registry.entity relation.target) arguments
        = .ok filters)
      (happlied : ∀ query, Database.modifiedQuery modifiers query references
        = .ok (query.applyAll (projection.toList ++ filters.toList)))
      (hbelow : Mirrors context modifiers (context.registry.entity relation.target) (children ())
        below)
      (hrest : Mirrors context modifiers entity rest nodes) :
      Mirrors context modifiers entity (.field name asName arguments children rest)
        (relationNode relation (responseKey name asName) references below :: nodes)

/-- **What compiling selected fields adds to the table**: the entries of its nodes in order, to
which the nodes refer in every table that holds them. -/
theorem compileFields_adds {selected : Selected}
    (htell : Tellable context.settings.filterPrefixes) :
    ∀ {entity : Entity} {taken : List String} {naming after : Naming} {nodes : List RelationNode},
      naming.Numbered context.settings.filterPrefixes →
      compileFields context entity taken selected naming = .ok (nodes, after) →
      ∃ entries, naming.Adds context.settings.filterPrefixes after entries
        ∧ Named.names entries = allReferences nodes
        ∧ ∀ modifiers : ModifierTable, Named.Distinct modifiers → entries ⊆ modifiers →
            Mirrors context modifiers entity selected nodes := by
  induction selected with
  | none =>
      intro entity taken naming after nodes hnaming h
      cases h
      exact ⟨[], hnaming.adds_nil, rfl, fun _ _ _ => .none⟩
  | missing fragment rest ih =>
      intro entity taken naming after nodes hnaming h
      exact absurd h (by simp [compileFields])
  | field name asName arguments children rest ihChildren ihRest =>
      intro entity taken naming after nodes hnaming h
      cases hrelation : entity.relation? name with
      | none =>
          rw [compileFields_plain hrelation] at h
          obtain ⟨entries, hadds, hnames, hmirrors⟩ := ihRest hnaming h
          exact ⟨entries, hadds, hnames, fun modifiers hdistinct hsub =>
            .plain hrelation (hmirrors modifiers hdistinct hsub)⟩
      | some relation =>
          obtain ⟨-, references, named, below, between, others, hown, hbelow, hothers, rfl⟩ :=
            (compileFields_relation hrelation).mp h
          obtain ⟨projection, filters, own, hprojection, hfilters,
              hownAdds, hownNames, hownEdits⟩ :=
            nameModifiers_adds htell hnaming hown
          obtain ⟨inner, hinnerAdds, hinnerNames, hinner⟩ :=
            ihChildren () hownAdds.numbered hbelow
          obtain ⟨outer, houterAdds, houterNames, houter⟩ := ihRest hinnerAdds.numbered hothers
          refine ⟨own ++ (inner ++ outer), hownAdds.append (hinnerAdds.append houterAdds), ?_, ?_⟩
          · simp [hownNames, hinnerNames, houterNames, allReferences, relationNode,
              RelationNode.references]
          · intro modifiers hdistinct hsub
            obtain ⟨hownSub, hsub⟩ := List.append_subset.mp hsub
            obtain ⟨hinnerSub, houterSub⟩ := List.append_subset.mp hsub
            refine .relation hrelation hprojection hfilters ?_
              (hinner modifiers hdistinct hinnerSub)
              (houter modifiers hdistinct houterSub)
            intro query
            rw [← hownNames, ← hownEdits]
            exact modifiedQuery_names hdistinct hownSub query

/-! ### The load -/

theorem compile_ok {entity : Entity} {selected : Selected} {load : EagerLoad} :
    compile context entity selected = .ok load
      ↔ ∃ naming, compileFields context entity [] selected .start = .ok (load.relations, naming)
          ∧ naming.modifiers = load.modifiers := by
  unfold compile
  simp only [Outcome.bind_ok, Outcome.pure_ok, Prod.exists]
  constructor
  · rintro ⟨relations, naming, h, rfl⟩
    exact ⟨naming, h, rfl⟩
  · rintro ⟨naming, h, hmodifiers⟩
    exact ⟨load.relations, naming, h, by rw [hmodifiers]⟩

/-- The table of a compiled load holds the entries of its nodes and nothing else. -/
theorem compile_numbered {entity : Entity} {selected : Selected} {load : EagerLoad}
    (hprefixes : Settings.checkPrefixes context.settings.filterPrefixes = .ok ())
    (h : compile context entity selected = .ok load) :
    ∃ naming : Naming, naming.Numbered context.settings.filterPrefixes
      ∧ naming.modifiers = load.modifiers
      ∧ Named.names load.modifiers = allReferences load.relations
      ∧ Mirrors context load.modifiers entity selected load.relations := by
  obtain ⟨naming, hfields, hmodifiers⟩ := compile_ok.mp h
  obtain ⟨entries, hadds, hnames, hmirrors⟩ := compileFields_adds
    (tellable_of_checkPrefixes hprefixes) Naming.start_numbered hfields
  have hentries : load.modifiers = entries := by
    rw [← hmodifiers, hadds.modifiers]
    rfl
  have hdistinct : Named.Distinct load.modifiers := hmodifiers ▸ hadds.numbered.distinct
  exact ⟨naming, hadds.numbered, hmodifiers, by rw [hentries, hnames],
    hmirrors _ hdistinct (by rw [hentries]; exact fun _ h => h)⟩

/-- **References of a compiled load are unique, closed and mean what they should.**  Read node by
node they are the names of the table in order, each once, and every node's own references apply
the projection and the filters of the selection that the node stands for. -/
theorem compile_references {entity : Entity} {selected : Selected} {load : EagerLoad}
    (hprefixes : Settings.checkPrefixes context.settings.filterPrefixes = .ok ())
    (h : compile context entity selected = .ok load) :
    allReferences load.relations = Named.names load.modifiers
      ∧ (allReferences load.relations).Nodup
      ∧ Mirrors context load.modifiers entity selected load.relations := by
  obtain ⟨naming, hnumbered, hmodifiers, hnames, hmirrors⟩ := compile_numbered hprefixes h
  have hdistinct : Named.Distinct load.modifiers := hmodifiers ▸ hnumbered.distinct
  refine ⟨hnames.symm, ?_, hmirrors⟩
  rw [← hnames]
  exact hdistinct

/-! ### Posts with their comments -/

namespace Posts

/-- The blog with the settings that nobody changed. -/
def planning : PlanContext := ⟨(Blog.registry.toOption).getD default, [], {}⟩

/-- The title of a published post, and its comments under a name of their own. -/
def post : Selected :=
  .field "title" none [] (fun _ => .none)
    (.field "comments" (some "remarks") []
      (fun _ => .field "text" none [] (fun _ => .none) .none) .none)

/-- The published posts of an author. -/
def selected : Selected :=
  .field "posts" none [("published", .boolean true)] (fun _ => post) .none

end Posts

/-- Three modifiers on two levels: the projections of both relations, and the filter of one. -/
theorem compile_references_posts :
    Settings.checkPrefixes Posts.planning.settings.filterPrefixes = .ok ()
      ∧ ∃ load, compile Posts.planning (Posts.planning.registry.entity 0) Posts.selected = .ok load
        ∧ allReferences load.relations = ["s0", "f1", "s2"]
        ∧ Named.names load.modifiers = ["s0", "f1", "s2"]
        ∧ Mirrors Posts.planning load.modifiers (Posts.planning.registry.entity 0) Posts.selected
            load.relations := by
  have hcompiled : (compile Posts.planning (Posts.planning.registry.entity 0) Posts.selected).map
      (fun load => allReferences load.relations) = .ok ["s0", "f1", "s2"] := rfl
  obtain ⟨load, hload, hreferences⟩ := Outcome.map_ok.mp hcompiled
  obtain ⟨hnames, -, hmirrors⟩ := compile_references (by decide +kernel) hload
  exact ⟨by decide +kernel, load, hload, hreferences, by rw [← hnames, hreferences], hmirrors⟩

end Plan

end GraphFetch

/-
Selections with the fragments written out.

Written out, a selection set has in the place of every spread what the fragment selects,
and in the place of every group what stands in it, at every depth.  `Inlines` says so
without counting how far spreads lead.  Which selections can be written out is a matter of
where their spreads lead: to fragments that are there, and never back to one of them.

A chain of such spreads visits no fragment twice.  So following as many as there are
fragments, or any more, gives the fields of the selections written out.
-/
import GraphFetch.Document.Selected
import GraphFetch.Proofs.Json.Named
import Mathlib.Data.List.Perm.Subperm

namespace GraphFetch

namespace Fragments

variable {fragments : Fragments}

/-! ### Where spreads lead -/

mutual

/-- The fragments that a selection spreads, at any depth. -/
def spreadsOne : Selection → List String
  | .field _ _ _ _ children => spreads children
  | .spread fragment _ => [fragment]
  | .group _ _ children => spreads children

/-- The fragments that a selection set spreads, at any depth. -/
def spreads : List Selection → List String
  | [] => []
  | selection :: rest => spreadsOne selection ++ spreads rest

end

theorem spreads_field_subset (name : String) (asName : Option String)
    (arguments : List (String × Literal)) (directives : List Directive)
    (children rest : List Selection) :
    spreads children ⊆ spreads (.field name asName arguments directives children :: rest) := by
  simp [spreads, spreadsOne]

theorem spreads_group_subset (condition : Option String) (directives : List Directive)
    (children rest : List Selection) :
    spreads children ⊆ spreads (.group condition directives children :: rest) := by
  simp [spreads, spreadsOne]

theorem spreads_rest_subset (selection : Selection) (rest : List Selection) :
    spreads rest ⊆ spreads (selection :: rest) := by
  simp [spreads]

theorem mem_spreads_spread (fragment : String) (directives : List Directive)
    (rest : List Selection) :
    fragment ∈ spreads (.spread fragment directives :: rest) := by
  simp [spreads, spreadsOne]

/-- Whether a fragment is spread in selections, or in a fragment that they lead to. -/
inductive Reaches (fragments : Fragments) : List Selection → String → Prop
  | spread {selections : List Selection} {name : String} (hname : name ∈ spreads selections) :
      Reaches fragments selections name
  | through {selections body : List Selection} {name other : String}
      (hname : name ∈ spreads selections) (hbody : Named.find? name fragments = some body)
      (hother : Reaches fragments body other) : Reaches fragments selections other

/-- Whether no fragment that selections lead to leads to itself. -/
def Acyclic (fragments : Fragments) (selections : List Selection) : Prop :=
  ∀ name body, Reaches fragments selections name →
    Named.find? name fragments = some body → ¬ Reaches fragments body name

/-- Whether every fragment that selections lead to is there, and none of them leads to itself. -/
structure Spreadable (fragments : Fragments) (selections : List Selection) : Prop where
  resolved : ∀ name, Reaches fragments selections name →
    ∃ body, Named.find? name fragments = some body
  acyclic : fragments.Acyclic selections

/-- Selections all of whose spreads are spreads of others lead where those lead. -/
theorem Reaches.mono {selections others : List Selection}
    (hspreads : spreads selections ⊆ spreads others) {name : String}
    (h : Reaches fragments selections name) : Reaches fragments others name := by
  cases h with
  | spread hname => exact .spread (hspreads hname)
  | through hname hbody hother => exact .through (hspreads hname) hbody hother

theorem Acyclic.mono {selections others : List Selection}
    (hspreads : spreads selections ⊆ spreads others) (h : fragments.Acyclic others) :
    fragments.Acyclic selections :=
  fun name body hname => h name body (hname.mono hspreads)

theorem Acyclic.body {selections body : List Selection} {name : String}
    (h : fragments.Acyclic selections) (hname : name ∈ spreads selections)
    (hbody : Named.find? name fragments = some body) : fragments.Acyclic body :=
  fun other next hother => h other next (.through hname hbody hother)

theorem Spreadable.mono {selections others : List Selection}
    (hspreads : spreads selections ⊆ spreads others) (h : Spreadable fragments others) :
    Spreadable fragments selections where
  resolved name hname := h.resolved name (hname.mono hspreads)
  acyclic := h.acyclic.mono hspreads

theorem Spreadable.body {selections body : List Selection} {name : String}
    (h : Spreadable fragments selections) (hname : name ∈ spreads selections)
    (hbody : Named.find? name fragments = some body) : Spreadable fragments body where
  resolved other hother := h.resolved other (.through hname hbody hother)
  acyclic := h.acyclic.body hname hbody

/-- Where fragments only spread such of a lower rank, what leads from a fragment has a lower rank.
-/
theorem Reaches.rank_lt {rank : String → Nat}
    (hrank : ∀ fragment ∈ fragments, ∀ other ∈ spreads fragment.2, rank other < rank fragment.1)
    {body : List Selection} {other : String} (h : Reaches fragments body other) {name : String}
    (hbody : Named.find? name fragments = some body) : rank other < rank name := by
  induction h generalizing name with
  | spread hname => exact hrank _ (Named.mem_of_find? hbody) _ hname
  | through hname hnext _ ih =>
      exact Nat.lt_trans (ih hnext) (hrank _ (Named.mem_of_find? hbody) _ hname)

theorem Reaches.known
    (hknown : ∀ fragment ∈ fragments, spreads fragment.2 ⊆ Named.names fragments)
    {selections : List Selection} {name : String} (h : Reaches fragments selections name)
    (hselections : spreads selections ⊆ Named.names fragments) : name ∈ Named.names fragments := by
  induction h with
  | spread hname => exact hselections hname
  | through _ hbody _ ih => exact ih (hknown _ (Named.mem_of_find? hbody))

/-- **A rank of the fragments shows that they run in no circle.** -/
theorem acyclic_of_rank (rank : String → Nat)
    (hrank : ∀ fragment ∈ fragments, ∀ other ∈ spreads fragment.2, rank other < rank fragment.1)
    {selections : List Selection} : Acyclic fragments selections :=
  fun _ _ _ hbody hname => Nat.lt_irrefl _ (hname.rank_lt hrank hbody)

theorem spreadable_of_rank (rank : String → Nat)
    (hrank : ∀ fragment ∈ fragments, ∀ other ∈ spreads fragment.2, rank other < rank fragment.1)
    (hknown : ∀ fragment ∈ fragments, spreads fragment.2 ⊆ Named.names fragments)
    {selections : List Selection} (hselections : spreads selections ⊆ Named.names fragments) :
    Spreadable fragments selections where
  resolved name hname := by
    cases hfind : Named.find? name fragments with
    | some body => exact ⟨body, rfl⟩
    | none => exact absurd (hname.known hknown hselections) (Named.find?_eq_none.mp hfind)
  acyclic := acyclic_of_rank rank hrank

/-! ### Writing fragments out -/

/-- Whether selections are others with every spread replaced by what the fragment selects and every
group by what stands in it, at every depth. -/
inductive Inlines (fragments : Fragments) : List Selection → List Selection → Prop
  | nil : Inlines fragments [] []
  | field {name : String} {asName : Option String} {arguments : List (String × Literal)}
      {directives : List Directive} {children inner rest after : List Selection}
      (hchildren : Inlines fragments children inner) (hrest : Inlines fragments rest after) :
      Inlines fragments (.field name asName arguments directives children :: rest)
        (.field name asName arguments directives inner :: after)
  | spread {fragment : String} {directives : List Directive}
      {body inner rest after : List Selection}
      (hbody : Named.find? fragment fragments = some body) (hinner : Inlines fragments body inner)
      (hrest : Inlines fragments rest after) :
      Inlines fragments (.spread fragment directives :: rest) (inner ++ after)
  | group {condition : Option String} {directives : List Directive}
      {children inner rest after : List Selection}
      (hchildren : Inlines fragments children inner) (hrest : Inlines fragments rest after) :
      Inlines fragments (.group condition directives children :: rest) (inner ++ after)

/-- Selections are written out in one way. -/
theorem Inlines.unique {selections first second : List Selection}
    (hfirst : Inlines fragments selections first) (hsecond : Inlines fragments selections second) :
    first = second := by
  induction hfirst generalizing second with
  | nil =>
      cases hsecond
      rfl
  | field _ _ ihChildren ihRest =>
      cases hsecond with
      | field hchildren hrest => rw [ihChildren hchildren, ihRest hrest]
  | spread hbody _ _ ihInner ihRest =>
      cases hsecond with
      | spread hbody' hinner hrest =>
          obtain rfl := Option.some.inj (hbody.symm.trans hbody')
          rw [ihInner hinner, ihRest hrest]
  | group _ _ ihChildren ihRest =>
      cases hsecond with
      | group hchildren hrest => rw [ihChildren hchildren, ihRest hrest]

mutual

/-- Whether a selection is a field, and so is whatever is selected below it. -/
def OnlyFields : Selection → Prop
  | .field _ _ _ _ children => AllFields children
  | .spread _ _ => False
  | .group _ _ _ => False

def AllFields : List Selection → Prop
  | [] => True
  | selection :: rest => OnlyFields selection ∧ AllFields rest

end

theorem AllFields.append {first second : List Selection} (hfirst : AllFields first)
    (hsecond : AllFields second) : AllFields (first ++ second) := by
  induction first with
  | nil => exact hsecond
  | cons selection rest ih =>
      rw [AllFields] at hfirst
      rw [List.cons_append, AllFields]
      exact ⟨hfirst.1, ih hfirst.2⟩

mutual

theorem OnlyFields.spreadsOne {selection : Selection} (h : OnlyFields selection) :
    spreadsOne selection = [] := by
  match selection with
  | .field _ _ _ _ children =>
      rw [OnlyFields] at h
      rw [Fragments.spreadsOne]
      exact AllFields.spreads h
  | .spread _ _ => exact absurd h (by simp [OnlyFields])
  | .group _ _ _ => exact absurd h (by simp [OnlyFields])

theorem AllFields.spreads {selections : List Selection} (h : AllFields selections) :
    spreads selections = [] := by
  match selections with
  | [] => rw [Fragments.spreads]
  | selection :: rest =>
      rw [AllFields] at h
      rw [Fragments.spreads, OnlyFields.spreadsOne h.1, AllFields.spreads h.2, List.append_nil]

end

/-- Selections that are fields only lead nowhere. -/
theorem AllFields.acyclic {selections : List Selection} (h : AllFields selections) :
    Acyclic fragments selections := by
  intro name body hname
  have hnone : ∀ other, other ∉ Fragments.spreads selections := by simp [h.spreads]
  cases hname with
  | spread hname => exact absurd hname (hnone _)
  | through hname => exact absurd hname (hnone _)

/-- What is written out holds no spread and no group. -/
theorem Inlines.allFields {selections out : List Selection} (h : Inlines fragments selections out) :
    AllFields out := by
  induction h with
  | nil => trivial
  | field _ _ ihChildren ihRest =>
      rw [AllFields, OnlyFields]
      exact ⟨ihChildren, ihRest⟩
  | spread _ _ _ ihInner ihRest => exact ihInner.append ihRest
  | group _ _ ihChildren ihRest => exact ihChildren.append ihRest

/-! ### Fields of a selection set -/

/-- The fields of a fragment where at most `depth` spreads are followed. -/
def spreadWithin (fragments : Fragments) : Nat → String → Selected
  | 0, name => .missing name .none
  | depth + 1, name =>
    match Named.find? name fragments with
    | some body => expandWithin fragments depth body
    | none => .missing name .none

theorem expandWithin_eq (depth : Nat) (selections : List Selection) :
    expandWithin fragments depth selections = splice (spreadWithin fragments depth) selections := by
  cases depth <;> rfl

theorem expandWithin_nil (depth : Nat) : expandWithin fragments depth [] = .none := by
  rw [expandWithin_eq, splice]

theorem expandWithin_field (depth : Nat) (name : String) (asName : Option String)
    (arguments : List (String × Literal)) (directives : List Directive)
    (children rest : List Selection) :
    expandWithin fragments depth (.field name asName arguments directives children :: rest)
      = .field name asName arguments (fun _ => expandWithin fragments depth children)
          (expandWithin fragments depth rest) := by
  simp only [expandWithin_eq, splice, spliceOne]

theorem expandWithin_group (depth : Nat) (condition : Option String)
    (directives : List Directive) (children rest : List Selection) :
    expandWithin fragments depth (.group condition directives children :: rest)
      = (expandWithin fragments depth children).append (expandWithin fragments depth rest) := by
  simp only [expandWithin_eq, splice, spliceOne]

theorem expandWithin_spread (depth : Nat) (fragment : String) (directives : List Directive)
    (rest : List Selection) :
    expandWithin fragments depth (.spread fragment directives :: rest)
      = (spreadWithin fragments depth fragment).append (expandWithin fragments depth rest) := by
  simp only [expandWithin_eq, splice, spliceOne]

end Fragments

theorem Selected.append_assoc (first second third : Selected) :
    (first.append second).append third = first.append (second.append third) := by
  induction first with
  | none => rfl
  | field name asName arguments children rest _ ih => simp only [Selected.append, ih]
  | missing fragment rest ih => simp only [Selected.append, ih]

namespace Fragments

variable {fragments : Fragments}

theorem expandWithin_append (depth : Nat) (first second : List Selection) :
    expandWithin fragments depth (first ++ second)
      = (expandWithin fragments depth first).append (expandWithin fragments depth second) := by
  induction first with
  | nil =>
      rw [expandWithin_nil]
      rfl
  | cons selection rest ih =>
      cases selection with
      | field name asName arguments directives children =>
          rw [List.cons_append, expandWithin_field, expandWithin_field, ih]
          rfl
      | spread fragment directives =>
          rw [List.cons_append, expandWithin_spread, expandWithin_spread, ih,
            Selected.append_assoc]
      | group condition directives children =>
          rw [List.cons_append, expandWithin_group, expandWithin_group, ih, Selected.append_assoc]

/-! ### As many spreads as there are fragments -/

/-- Whether selections can be written out, and have the fields of what is written there where at
most `depth` spreads are followed. -/
def WrittenWithin (fragments : Fragments) (depth : Nat) (selections : List Selection) : Prop :=
  ∃ out, Inlines fragments selections out
    ∧ ∀ others less, expandWithin fragments depth selections = expandWithin others less out

theorem writtenWithin_nil (depth : Nat) : WrittenWithin fragments depth [] := by
  refine ⟨[], .nil, fun others less => ?_⟩
  rw [expandWithin_nil, expandWithin_nil]

theorem WrittenWithin.field {depth : Nat} {children rest : List Selection}
    (hchildren : WrittenWithin fragments depth children)
    (hrest : WrittenWithin fragments depth rest)
    (name : String) (asName : Option String) (arguments : List (String × Literal))
    (directives : List Directive) :
    WrittenWithin fragments depth (.field name asName arguments directives children :: rest) := by
  obtain ⟨inner, hinner, hinnerFields⟩ := hchildren
  obtain ⟨after, hafter, hafterFields⟩ := hrest
  refine ⟨_, .field hinner hafter, fun others less => ?_⟩
  rw [expandWithin_field, expandWithin_field, hinnerFields others less, hafterFields others less]

theorem WrittenWithin.group {depth : Nat} {children rest : List Selection}
    (hchildren : WrittenWithin fragments depth children)
    (hrest : WrittenWithin fragments depth rest) (condition : Option String)
    (directives : List Directive) :
    WrittenWithin fragments depth (.group condition directives children :: rest) := by
  obtain ⟨inner, hinner, hinnerFields⟩ := hchildren
  obtain ⟨after, hafter, hafterFields⟩ := hrest
  refine ⟨_, .group hinner hafter, fun others less => ?_⟩
  rw [expandWithin_group, expandWithin_append, hinnerFields others less, hafterFields others less]

theorem WrittenWithin.spread {depth : Nat} {fragment : String} {body rest : List Selection}
    (hbody : Named.find? fragment fragments = some body)
    (hinside : WrittenWithin fragments depth body)
    (hrest : WrittenWithin fragments (depth + 1) rest) (directives : List Directive) :
    WrittenWithin fragments (depth + 1) (.spread fragment directives :: rest) := by
  obtain ⟨inner, hinner, hinnerFields⟩ := hinside
  obtain ⟨after, hafter, hafterFields⟩ := hrest
  refine ⟨_, .spread hbody hinner hafter, fun others less => ?_⟩
  have hfields : spreadWithin fragments (depth + 1) fragment = expandWithin others less inner := by
    rw [spreadWithin, hbody]
    exact hinnerFields others less
  rw [expandWithin_spread, expandWithin_append, hfields, hafterFields others less]

/-- Selections whose spreads run in no circle and lead past the fragments that were visited, where
as many more spreads are followed as there are other fragments. -/
structure Onward (fragments : Fragments) (depth : Nat) (visited : List String)
    (selections : List Selection) : Prop where
  acyclic : fragments.Acyclic selections
  nodup : visited.Nodup
  known : visited ⊆ Named.names fragments
  past : ∀ name ∈ visited, ¬ Reaches fragments selections name
  enough : fragments.length ≤ depth + visited.length

theorem Acyclic.onward {selections : List Selection} (h : fragments.Acyclic selections)
    {depth : Nat}
    (hdepth : fragments.length ≤ depth) : Onward fragments depth [] selections where
  acyclic := h
  nodup := List.nodup_nil
  known := List.nil_subset _
  past := fun name hname => absurd hname (by simp)
  enough := hdepth

theorem Onward.mono {depth : Nat} {visited : List String} {selections others : List Selection}
    (hspreads : spreads selections ⊆ spreads others) (h : Onward fragments depth visited others) :
    Onward fragments depth visited selections where
  acyclic := h.acyclic.mono hspreads
  nodup := h.nodup
  known := h.known
  past name hname hreaches := h.past name hname (hreaches.mono hspreads)
  enough := h.enough

/-- A fragment that is spread was not visited, so one more spread may be followed, into its body. -/
theorem Onward.step {depth : Nat} {visited : List String} {selections body : List Selection}
    (h : Onward fragments depth visited selections) {name : String}
    (hname : name ∈ spreads selections) (hbody : Named.find? name fragments = some body) :
    ∃ less, depth = less + 1 ∧ Onward fragments less (name :: visited) body := by
  have hfresh : name ∉ visited := fun hvisited => h.past name hvisited (.spread hname)
  have hnodup : (name :: visited).Nodup := List.nodup_cons.mpr ⟨hfresh, h.nodup⟩
  have hknown : name :: visited ⊆ Named.names fragments :=
    List.cons_subset.mpr ⟨Named.mem_names_of_find? hbody, h.known⟩
  have hlength : (name :: visited).length ≤ fragments.length := by
    have := (hnodup.subperm hknown).length_le
    rwa [Named.names, List.length_map] at this
  have henough := h.enough
  rw [List.length_cons] at hlength
  refine ⟨depth - 1, by omega, h.acyclic.body hname hbody, hnodup, hknown, ?_, ?_⟩
  · intro other hother hreaches
    rcases List.mem_cons.mp hother with rfl | hother
    · exact h.acyclic other body (.spread hname) hbody hreaches
    · exact h.past other hother (.through hname hbody hreaches)
  · rw [List.length_cons]
    omega

/-- Following more spreads gives no other fields. -/
theorem Onward.expandWithin : ∀ (depth : Nat) (selections : List Selection) {visited : List String},
    Onward fragments depth visited selections → ∀ {more : Nat}, depth ≤ more →
      fragments.expandWithin more selections = fragments.expandWithin depth selections
  | depth, [], _, _, more, _ => by rw [expandWithin_nil, expandWithin_nil]
  | depth, .field name asName arguments directives children :: rest, visited, h, more, hmore => by
    have hchildren : Onward fragments depth visited children :=
      h.mono (spreads_field_subset name asName arguments directives children rest)
    have hrest : Onward fragments depth visited rest := h.mono (spreads_rest_subset _ rest)
    rw [expandWithin_field, expandWithin_field, Onward.expandWithin depth children hchildren hmore,
      Onward.expandWithin depth rest hrest hmore]
  | depth, .group condition directives children :: rest, visited, h, more, hmore => by
    have hchildren : Onward fragments depth visited children :=
      h.mono (spreads_group_subset condition directives children rest)
    have hrest : Onward fragments depth visited rest := h.mono (spreads_rest_subset _ rest)
    rw [expandWithin_group, expandWithin_group, Onward.expandWithin depth children hchildren hmore,
      Onward.expandWithin depth rest hrest hmore]
  | depth, .spread fragment directives :: rest, visited, h, more, hmore => by
    have hspread := mem_spreads_spread fragment directives rest
    have hrest : Onward fragments depth visited rest := h.mono (spreads_rest_subset _ rest)
    have hinside : spreadWithin fragments more fragment
      = spreadWithin fragments depth fragment := by
      cases hbody : Named.find? fragment fragments with
      | none => cases more <;> cases depth <;> simp [spreadWithin, hbody]
      | some body =>
          obtain ⟨less, rfl, hless⟩ := h.step hspread hbody
          obtain ⟨further, rfl⟩ := Nat.exists_eq_add_of_le' hmore
          show spreadWithin fragments (further + less + 1) fragment = _
          rw [spreadWithin, spreadWithin, hbody]
          exact Onward.expandWithin less body hless (Nat.le_add_left less further)
    rw [expandWithin_spread, expandWithin_spread, hinside,
      Onward.expandWithin depth rest hrest hmore]
termination_by depth selections => (depth, sizeOf selections)

/-- The induction is on how many spreads may be followed, and for each number on the selections. -/
theorem Onward.writtenWithin :
    ∀ (depth : Nat) (selections : List Selection) {visited : List String},
    Onward fragments depth visited selections → Spreadable fragments selections →
      WrittenWithin fragments depth selections
  | depth, [], _, _, _ => writtenWithin_nil depth
  | depth, .field name asName arguments directives children :: rest, visited, h, hspreadable => by
    have hchildren := spreads_field_subset name asName arguments directives children rest
    have hrest := spreads_rest_subset (.field name asName arguments directives children) rest
    exact .field ((h.mono hchildren).writtenWithin depth children (hspreadable.mono hchildren))
      ((h.mono hrest).writtenWithin depth rest (hspreadable.mono hrest)) _ _ _ _
  | depth, .group condition directives children :: rest, visited, h, hspreadable => by
    have hchildren := spreads_group_subset condition directives children rest
    have hrest := spreads_rest_subset (.group condition directives children) rest
    exact .group ((h.mono hchildren).writtenWithin depth children (hspreadable.mono hchildren))
      ((h.mono hrest).writtenWithin depth rest (hspreadable.mono hrest)) _ _
  | 0, .spread fragment directives :: rest, visited, h, hspreadable => by
    have hspread := mem_spreads_spread fragment directives rest
    obtain ⟨body, hbody⟩ := hspreadable.resolved fragment (.spread hspread)
    obtain ⟨less, hless, -⟩ := h.step hspread hbody
    exact absurd hless (Nat.succ_ne_zero less).symm
  | depth + 1, .spread fragment directives :: rest, visited, h, hspreadable => by
    have hspread := mem_spreads_spread fragment directives rest
    have hrest := spreads_rest_subset (.spread fragment directives) rest
    obtain ⟨body, hbody⟩ := hspreadable.resolved fragment (.spread hspread)
    obtain ⟨less, hless, hinside⟩ := h.step hspread hbody
    obtain rfl : depth = less := Nat.succ.inj hless
    exact .spread hbody (hinside.writtenWithin depth body (hspreadable.body hspread hbody))
      ((h.mono hrest).writtenWithin (depth + 1) rest (hspreadable.mono hrest)) _
termination_by depth selections => (depth, sizeOf selections)

/-- **Selections whose spreads resolve and run in no circle can be written out, and their fields are
those written, however many spreads may be followed beyond the number of fragments.** -/
theorem Spreadable.writtenWithin {selections : List Selection}
    (h : Spreadable fragments selections) {depth : Nat} (hdepth : fragments.length ≤ depth) :
    WrittenWithin fragments depth selections :=
  (Acyclic.onward h.acyclic hdepth).writtenWithin depth selections h

theorem Spreadable.fields_written {selections out : List Selection}
    (h : Spreadable fragments selections) (hout : Inlines fragments selections out) {depth : Nat}
    (hdepth : fragments.length ≤ depth) (others : Fragments) (less : Nat) :
    expandWithin fragments depth selections = expandWithin others less out := by
  obtain ⟨written, hwritten, hfields⟩ := h.writtenWithin hdepth
  obtain rfl := hwritten.unique hout
  exact hfields others less

end Fragments

end GraphFetch

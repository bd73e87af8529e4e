/-
Selection sets level by level.

A selection stands in a set if it is one of the set's own, or stands in a group or in a
fragment that stands there.  What a set gathers is the fields that stand in it, in the order
of the document; it gathers them if all fragments that are spread in it are there.  What is
selected below a field is another set, on the level below.

Where fragments run in no circle, what holds of a selection set whenever it holds of the sets
below its fields holds of every set.  And the fields found for such a set, which spreads are
followed for a number of times only, are the gathered ones with those found for the sets
below them.
-/
import GraphFetch.Proofs.Document.Inlining

namespace GraphFetch

namespace Fragments

/-! ### What stands in a selection set -/

/-- Whether a selection is one of a set, or stands in a group or a fragment that does. -/
inductive Stands (fragments : Fragments) (selection : Selection) : List Selection → Prop
  | here {selections : List Selection} (h : selection ∈ selections) :
      Stands fragments selection selections
  | group {selections children : List Selection} {condition : Option String}
      {directives : List Directive} (hgroup : .group condition directives children ∈ selections)
      (h : Stands fragments selection children) : Stands fragments selection selections
  | spread {selections body : List Selection} {fragment : String} {directives : List Directive}
      (hspread : .spread fragment directives ∈ selections)
      (hbody : Named.find? fragment fragments = some body)
      (h : Stands fragments selection body) : Stands fragments selection selections

/-- Whether a selection set holds certain fields, wherever groups and fragments bring them in, in
the order of the document. -/
inductive Gathers (fragments : Fragments) :
    List Selection → List WrittenField → Prop
  | nil : Gathers fragments [] []
  | field {name : String} {asName : Option String} {arguments : List (String × Literal)}
      {directives : List Directive} {children rest : List Selection} {fields : List WrittenField}
      (hrest : Gathers fragments rest fields) :
      Gathers fragments (.field name asName arguments directives children :: rest)
        (⟨name, asName, arguments, directives, children⟩ :: fields)
  | group {condition : Option String} {directives : List Directive}
      {children rest : List Selection} {inner fields : List WrittenField}
      (hchildren : Gathers fragments children inner) (hrest : Gathers fragments rest fields) :
      Gathers fragments (.group condition directives children :: rest) (inner ++ fields)
  | spread {fragment : String} {directives : List Directive} {body rest : List Selection}
      {inner fields : List WrittenField}
      (hbody : Named.find? fragment fragments = some body) (hinner : Gathers fragments body inner)
      (hrest : Gathers fragments rest fields) :
      Gathers fragments (.spread fragment directives :: rest) (inner ++ fields)

/-- Whether all fragments that are spread in a selection set are there. -/
def Resolved (fragments : Fragments) (selections : List Selection) : Prop :=
  ∀ fragment directives, Stands fragments (.spread fragment directives) selections →
    ∃ body, Named.find? fragment fragments = some body

variable {fragments : Fragments}

theorem stands_cons {selection first : Selection} {rest : List Selection} :
    Stands fragments selection (first :: rest)
      ↔ Stands fragments selection [first] ∨ Stands fragments selection rest := by
  constructor
  · rintro (h | ⟨hgroup, h⟩ | ⟨hspread, hbody, h⟩)
    · exact (List.mem_cons.mp h).imp (fun h => .here (by simp [h])) .here
    · exact (List.mem_cons.mp hgroup).imp (fun heq => .group (List.mem_singleton.mpr heq) h)
        (.group · h)
    · exact (List.mem_cons.mp hspread).imp
        (fun heq => .spread (List.mem_singleton.mpr heq) hbody h) (.spread · hbody h)
  · have hrest : ∀ {other : Selection}, other ∈ rest → other ∈ first :: rest :=
      List.mem_cons_of_mem first
    have hfirst : ∀ {other : Selection}, other ∈ [first] → other ∈ first :: rest := by
      simp +contextual
    rintro ((h | ⟨hgroup, h⟩ | ⟨hspread, hbody, h⟩) | (h | ⟨hgroup, h⟩ | ⟨hspread, hbody, h⟩))
    · exact .here (hfirst h)
    · exact .group (hfirst hgroup) h
    · exact .spread (hfirst hspread) hbody h
    · exact .here (hrest h)
    · exact .group (hrest hgroup) h
    · exact .spread (hrest hspread) hbody h

theorem stands_field {selection : Selection} {name : String} {asName : Option String}
    {arguments : List (String × Literal)} {directives : List Directive}
    {children : List Selection} :
    Stands fragments selection [.field name asName arguments directives children]
      ↔ selection = .field name asName arguments directives children := by
  constructor
  · rintro (h | ⟨hgroup, -⟩ | ⟨hspread, -, -⟩)
    · exact List.mem_singleton.mp h
    · exact absurd hgroup (by simp)
    · exact absurd hspread (by simp)
  · intro h
    exact .here (List.mem_singleton.mpr h)

theorem stands_group {selection : Selection} {condition : Option String}
    {directives : List Directive} {children : List Selection} :
    Stands fragments selection [.group condition directives children]
      ↔ selection = .group condition directives children
        ∨ Stands fragments selection children := by
  constructor
  · rintro (h | ⟨hgroup, h⟩ | ⟨hspread, -, -⟩)
    · exact Or.inl (List.mem_singleton.mp h)
    · obtain ⟨rfl, rfl, rfl⟩ := Selection.group.inj (List.mem_singleton.mp hgroup)
      exact Or.inr h
    · exact absurd hspread (by simp)
  · rintro (h | h)
    · exact .here (List.mem_singleton.mpr h)
    · exact .group (List.mem_singleton_self _) h

theorem stands_spread {selection : Selection} {fragment : String} {directives : List Directive}
    {body : List Selection}
    (hbody : Named.find? fragment fragments = some body) :
    Stands fragments selection [.spread fragment directives]
      ↔ selection = .spread fragment directives ∨ Stands fragments selection body := by
  constructor
  · rintro (h | ⟨hgroup, -⟩ | ⟨hspread, hbody', h⟩)
    · exact Or.inl (List.mem_singleton.mp h)
    · exact absurd hgroup (by simp)
    · obtain ⟨rfl, rfl⟩ := Selection.spread.inj (List.mem_singleton.mp hspread)
      obtain rfl := Option.some.inj (hbody.symm.trans hbody')
      exact Or.inr h
  · rintro (h | h)
    · exact .here (List.mem_singleton.mpr h)
    · exact .spread (List.mem_singleton_self _) hbody h

theorem not_stands_nil {selection : Selection} : ¬ Stands fragments selection [] := by
  rintro (h | ⟨h, -⟩ | ⟨h, -, -⟩) <;> exact absurd h List.not_mem_nil

/-! ### What a selection set gathers -/

namespace Gathers

variable {selections : List Selection} {fields : List WrittenField}

theorem unique {others : List WrittenField}
    (h : Gathers fragments selections fields) (h' : Gathers fragments selections others) :
    fields = others := by
  induction h generalizing others with
  | nil =>
      cases h'
      rfl
  | field _ ih =>
      cases h' with
      | field hrest => rw [ih hrest]
  | group _ _ ihChildren ihRest =>
      cases h' with
      | group hchildren hrest => rw [ihChildren hchildren, ihRest hrest]
  | spread hbody _ _ ihInner ihRest =>
      cases h' with
      | spread hbody' hinner hrest =>
          obtain rfl := Option.some.inj (hbody.symm.trans hbody')
          rw [ihInner hinner, ihRest hrest]

/-- Gathered are the fields that stand in the set. -/
theorem mem_iff (h : Gathers fragments selections fields) {field : WrittenField} :
    field ∈ fields ↔ Stands fragments field.selection selections := by
  induction h with
  | nil => simp [not_stands_nil]
  | field _ ih =>
      rw [List.mem_cons, ih, stands_cons, stands_field]
      refine or_congr_left ?_
      obtain ⟨name, asName, arguments, directives, selections⟩ := field
      simp [WrittenField.selection]
  | group _ _ ihChildren ihRest =>
      rw [List.mem_append, ihChildren, ihRest, stands_cons, stands_group]
      simp [WrittenField.selection]
  | spread hbody _ _ ihInner ihRest =>
      rw [List.mem_append, ihInner, ihRest, stands_cons, stands_spread hbody]
      simp [WrittenField.selection]

theorem resolved (h : Gathers fragments selections fields) : fragments.Resolved selections := by
  intro fragment directives hstands
  induction h with
  | nil => exact absurd hstands not_stands_nil
  | field _ ih =>
      rw [stands_cons, stands_field] at hstands
      exact ih (hstands.resolve_left (by simp))
  | group _ _ ihChildren ihRest =>
      rw [stands_cons, stands_group] at hstands
      rcases hstands with (hgroup | hstands) | hstands
      · exact absurd hgroup (by simp)
      · exact ihChildren hstands
      · exact ihRest hstands
  | spread hbody _ _ ihInner ihRest =>
      rw [stands_cons, stands_spread hbody] at hstands
      rcases hstands with (hspread | hstands) | hstands
      · obtain ⟨rfl, rfl⟩ := Selection.spread.inj hspread
        exact ⟨_, hbody⟩
      · exact ihInner hstands
      · exact ihRest hstands

end Gathers

/-! ### Induction where fragments run in no circle -/

section Induction

variable {motive : (selections : List Selection) → fragments.Acyclic selections → Prop}
  (nil : ∀ h, motive [] h)
  (field : ∀ name asName arguments directives children rest
    (h : fragments.Acyclic (.field name asName arguments directives children :: rest)),
    motive children (h.mono (spreads_field_subset name asName arguments directives children rest)) →
    motive rest (h.mono (spreads_rest_subset _ rest)) →
    motive (.field name asName arguments directives children :: rest) h)
  (group : ∀ condition directives children rest
    (h : fragments.Acyclic (.group condition directives children :: rest)),
    motive children (h.mono (spreads_group_subset condition directives children rest)) →
    motive rest (h.mono (spreads_rest_subset _ rest)) →
    motive (.group condition directives children :: rest) h)
  (spread : ∀ fragment directives rest
    (h : fragments.Acyclic (.spread fragment directives :: rest)),
    (∀ body (hbody : Named.find? fragment fragments = some body),
      motive body (h.body (mem_spreads_spread fragment directives rest) hbody)) →
    motive rest (h.mono (spreads_rest_subset _ rest)) →
    motive (.spread fragment directives :: rest) h)
include nil field group spread

theorem Onward.induction : ∀ (depth : Nat) (selections : List Selection) {visited : List String}
    (h : Onward fragments depth visited selections), motive selections h.acyclic
  | _, [], _, h => nil h.acyclic
  | depth, .field name asName arguments directives children :: rest, _, h =>
    field name asName arguments directives children rest h.acyclic
      (Onward.induction depth children (h.mono (spreads_field_subset _ _ _ _ _ _)))
      (Onward.induction depth rest (h.mono (spreads_rest_subset _ _)))
  | depth, .group condition directives children :: rest, _, h =>
    group condition directives children rest h.acyclic
      (Onward.induction depth children (h.mono (spreads_group_subset _ _ _ _)))
      (Onward.induction depth rest (h.mono (spreads_rest_subset _ _)))
  | 0, .spread fragment directives :: rest, _, h => by
    refine spread fragment directives rest h.acyclic (fun body hbody => ?_)
      (Onward.induction 0 rest (h.mono (spreads_rest_subset _ _)))
    obtain ⟨less, hless, -⟩ := h.step (mem_spreads_spread fragment directives rest) hbody
    exact absurd hless (Nat.succ_ne_zero less).symm
  | depth + 1, .spread fragment directives :: rest, _, h => by
    refine spread fragment directives rest h.acyclic (fun body hbody => ?_)
      (Onward.induction (depth + 1) rest (h.mono (spreads_rest_subset _ _)))
    obtain ⟨less, hless, hinside⟩ := h.step (mem_spreads_spread fragment directives rest) hbody
    obtain rfl : depth = less := Nat.succ.inj hless
    exact Onward.induction depth body hinside
termination_by depth selections => (depth, sizeOf selections)

/-- **Where fragments run in no circle, what is shown of a set may be supposed of the fragments that
are spread in it.** -/
theorem Acyclic.induction {selections : List Selection} (h : fragments.Acyclic selections) :
    motive selections h :=
  Onward.induction nil field group spread fragments.length selections (h.onward (Nat.le_refl _))

end Induction

section Acyclic

variable {selections : List Selection} {fields : List WrittenField}

/-- The selections below a gathered field lead nowhere but where the set leads. -/
theorem Gathers.reaches (h : Gathers fragments selections fields) {field : WrittenField}
    (hfield : field ∈ fields) {name : String} (hname : Reaches fragments field.selections name) :
    Reaches fragments selections name := by
  induction h with
  | nil => exact absurd hfield List.not_mem_nil
  | field _ ih =>
      rcases List.mem_cons.mp hfield with rfl | hfield
      · exact hname.mono (spreads_field_subset _ _ _ _ _ _)
      · exact (ih hfield).mono (spreads_rest_subset _ _)
  | group _ _ ihChildren ihRest =>
      rcases List.mem_append.mp hfield with hfield | hfield
      · exact (ihChildren hfield).mono (spreads_group_subset _ _ _ _)
      · exact (ihRest hfield).mono (spreads_rest_subset _ _)
  | spread hbody _ _ ihInner ihRest =>
      rcases List.mem_append.mp hfield with hfield | hfield
      · exact .through (mem_spreads_spread _ _ _) hbody (ihInner hfield)
      · exact (ihRest hfield).mono (spreads_rest_subset _ _)

theorem Gathers.acyclic (h : Gathers fragments selections fields)
    (hacyclic : fragments.Acyclic selections) :
    ∀ field ∈ fields, fragments.Acyclic field.selections :=
  fun _ hfield name body hname => hacyclic name body (h.reaches hfield hname)

theorem Gathers.spreadable (h : Gathers fragments selections fields)
    (hspreadable : fragments.Spreadable selections) :
    ∀ field ∈ fields, fragments.Spreadable field.selections :=
  fun field hfield => ⟨fun name hname => hspreadable.resolved name (h.reaches hfield hname),
    h.acyclic hspreadable.acyclic field hfield⟩

/-- **Where fragments run in no circle, what is shown of a set may be supposed of the sets below its
fields.** -/
theorem Acyclic.levels
    {motive : (selections : List Selection) → fragments.Acyclic selections → Prop}
    (step : ∀ selections (h : fragments.Acyclic selections),
      (∀ fields (hfields : Gathers fragments selections fields) field (hfield : field ∈ fields),
        motive field.selections (hfields.acyclic h field hfield)) → motive selections h)
    (h : fragments.Acyclic selections) : motive selections h := by
  have hbelow : ∀ fields (hfields : Gathers fragments selections fields) field
      (hfield : field ∈ fields), motive field.selections (hfields.acyclic h field hfield) := by
    induction h using Acyclic.induction with
    | nil => rintro _ ⟨⟩ field ⟨⟩
    | field name asName arguments directives children rest h ihChildren ihRest =>
        rintro _ (_ | hrest) field hfield
        rcases List.mem_cons.mp hfield with rfl | hfield
        · exact step children _ ihChildren
        · exact ihRest _ hrest field hfield
    | group condition directives children rest h ihChildren ihRest =>
        rintro _ (_ | _ | ⟨hchildren, hrest⟩) field hfield
        exact (List.mem_append.mp hfield).elim (ihChildren _ hchildren field)
          (ihRest _ hrest field)
    | spread fragment directives rest h ihBody ihRest =>
        rintro _ (_ | _ | _ | ⟨hbody, hinner, hrest⟩) field hfield
        exact (List.mem_append.mp hfield).elim (ihBody _ hbody _ hinner field)
          (ihRest _ hrest field)
  exact step selections h hbelow

end Acyclic

/-! ### The fields found for a selection set -/

theorem expand_nil : fragments.expand [] = .none := expandWithin_nil _

theorem expand_field (name : String) (asName : Option String)
    (arguments : List (String × Literal)) (directives : List Directive)
    (children rest : List Selection) :
    fragments.expand (.field name asName arguments directives children :: rest)
      = .field name asName arguments (fun _ => fragments.expand children) (fragments.expand rest) :=
  expandWithin_field _ _ _ _ _ _ _

theorem expand_group (condition : Option String) (directives : List Directive)
    (children rest : List Selection) :
    fragments.expand (.group condition directives children :: rest)
      = (fragments.expand children).append (fragments.expand rest) :=
  expandWithin_group _ _ _ _ _

theorem expand_missing {fragment : String} (h : Named.find? fragment fragments = none)
    (directives : List Directive) (rest : List Selection) :
    fragments.expand (.spread fragment directives :: rest)
      = .missing fragment (fragments.expand rest) := by
  have hspread : ∀ depth, spreadWithin fragments depth fragment = .missing fragment .none := by
    intro depth
    cases depth with
    | zero => rfl
    | succ depth => rw [spreadWithin, h]
  unfold expand
  rw [expandWithin_spread, hspread]
  rfl

theorem Acyclic.expand_spread {fragment : String} {directives : List Directive}
    {body rest : List Selection}
    (h : fragments.Acyclic (.spread fragment directives :: rest))
    (hbody : Named.find? fragment fragments = some body) :
    fragments.expand (.spread fragment directives :: rest)
      = (fragments.expand body).append (fragments.expand rest) := by
  obtain ⟨less, hless, hinside⟩ :=
    (h.onward (Nat.le_refl _)).step (mem_spreads_spread fragment _ rest) hbody
  have hspread : spreadWithin fragments fragments.length fragment = fragments.expand body := by
    unfold expand
    rw [hless, spreadWithin, hbody]
    exact (hinside.expandWithin less body (Nat.le_succ less)).symm
  rw [← hspread]
  exact expandWithin_spread _ _ _ _

/-- The fields of a selection set that it gathers, with those found for the sets below them. -/
def listed (fragments : Fragments) : List WrittenField → Selected
  | [] => .none
  | field :: rest =>
    .field field.name field.asName field.arguments (fun _ => fragments.expand field.selections)
      (listed fragments rest)

theorem listed_append (fields others : List WrittenField) :
    fragments.listed (fields ++ others)
      = (fragments.listed fields).append (fragments.listed others) := by
  induction fields with
  | nil => rfl
  | cons field rest ih => rw [List.cons_append, listed, listed, ih, Selected.append]

/-- **Found are the fields that a selection set gathers.** -/
theorem Gathers.expand_eq {selections : List Selection}
    {fields : List WrittenField} (h : Gathers fragments selections fields)
    (hacyclic : fragments.Acyclic selections) :
    fragments.expand selections = fragments.listed fields := by
  induction h with
  | nil => exact expand_nil
  | field _ ih =>
      rw [expand_field, listed, ih (hacyclic.mono (spreads_rest_subset _ _))]
  | group _ _ ihChildren ihRest =>
      rw [expand_group, listed_append, ihChildren (hacyclic.mono (spreads_group_subset _ _ _ _)),
        ihRest (hacyclic.mono (spreads_rest_subset _ _))]
  | spread hbody _ _ ihInner ihRest =>
      rw [hacyclic.expand_spread hbody, listed_append,
        ihInner (hacyclic.body (mem_spreads_spread _ _ _) hbody),
        ihRest (hacyclic.mono (spreads_rest_subset _ _))]

end Fragments

/-- Whether all fragments that are spread in a selection set were there. -/
def Selected.Whole : Selected → Prop
  | .none => True
  | .field _ _ _ _ rest => rest.Whole
  | .missing _ _ => False

theorem Selected.whole_append (first second : Selected) :
    (first.append second).Whole ↔ first.Whole ∧ second.Whole := by
  induction first with
  | none => simp [Selected.append, Selected.Whole]
  | field name asName arguments children rest _ ih => exact ih
  | missing fragment rest _ => simp [Selected.append, Selected.Whole]

namespace Fragments

variable {fragments : Fragments} {selections : List Selection}

/-- **A selection set whose fields were all found gathers them.** -/
theorem Acyclic.gathers_of_whole (h : fragments.Acyclic selections)
    (hwhole : (fragments.expand selections).Whole) :
    ∃ fields, Gathers fragments selections fields := by
  induction h using Acyclic.induction with
  | nil => exact ⟨[], .nil⟩
  | field name asName arguments directives children rest h _ ihRest =>
      rw [expand_field] at hwhole
      obtain ⟨fields, hfields⟩ := ihRest hwhole
      exact ⟨_, .field hfields⟩
  | group condition directives children rest h ihChildren ihRest =>
      rw [expand_group, Selected.whole_append] at hwhole
      obtain ⟨inner, hinner⟩ := ihChildren hwhole.1
      obtain ⟨fields, hfields⟩ := ihRest hwhole.2
      exact ⟨_, .group hinner hfields⟩
  | spread fragment directives rest h ihBody ihRest =>
      cases hbody : Named.find? fragment fragments with
      | none =>
          rw [expand_missing hbody] at hwhole
          exact hwhole.elim
      | some body =>
          rw [h.expand_spread hbody, Selected.whole_append] at hwhole
          obtain ⟨inner, hinner⟩ := ihBody body hbody hwhole.1
          obtain ⟨fields, hfields⟩ := ihRest hwhole.2
          exact ⟨_, .spread hbody hinner hfields⟩

/-- **A selection set gathers fields if all fragments that are spread in it are there.** -/
theorem Acyclic.gathers_of_resolved (h : fragments.Acyclic selections)
    (hresolved : fragments.Resolved selections) :
    ∃ fields, Gathers fragments selections fields := by
  induction h using Acyclic.induction with
  | nil => exact ⟨[], .nil⟩
  | field name asName arguments directives children rest h _ ihRest =>
      obtain ⟨fields, hfields⟩ :=
        ihRest fun fragment _ hstands => hresolved fragment _ (stands_cons.mpr (.inr hstands))
      exact ⟨_, .field hfields⟩
  | group condition directives children rest h ihChildren ihRest =>
      obtain ⟨inner, hinner⟩ := ihChildren fun fragment _ hstands =>
        hresolved fragment _ (stands_cons.mpr (.inl (stands_group.mpr (.inr hstands))))
      obtain ⟨fields, hfields⟩ :=
        ihRest fun fragment _ hstands => hresolved fragment _ (stands_cons.mpr (.inr hstands))
      exact ⟨_, .group hinner hfields⟩
  | spread fragment directives rest h ihBody ihRest =>
      obtain ⟨body, hbody⟩ := hresolved fragment directives (.here List.mem_cons_self)
      obtain ⟨inner, hinner⟩ := ihBody body hbody fun other _ hstands =>
        hresolved other _ (stands_cons.mpr (.inl ((stands_spread hbody).mpr (.inr hstands))))
      obtain ⟨fields, hfields⟩ :=
        ihRest fun other _ hstands => hresolved other _ (stands_cons.mpr (.inr hstands))
      exact ⟨_, .spread hbody hinner hfields⟩

end Fragments

end GraphFetch

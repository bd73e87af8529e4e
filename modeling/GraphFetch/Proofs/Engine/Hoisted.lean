/-
Arguments hoisted into variables.

A value that an argument resolves to may be given by a variable instead, in its JSON form, which
is all that a request or a default can give.  That form is not the value: an enum comes back as a
string, and a variable without a value inside a list as null.  But it has the same JSON form, and
no built-in filter looks further.  So compiling names the same modifiers for the same nodes, and
each of them makes queries that are alike.

Statements show the notation of values, where an enum has no quotes: they may differ.
-/
import GraphFetch.Proofs.Document.Variables
import GraphFetch.Proofs.Engine.Agreement
import GraphFetch.Proofs.Plan.JsonForm

namespace GraphFetch

open Outcome (Both)

/-! ### Documents with hoisted arguments -/

/-- Whether arguments are others with some values hoisted: those that resolve to a value, into
variables that hold its JSON form.  The others mention no fresh variable. -/
inductive Hoists (fresh : List String) (bound bound' : Variables) :
    List (String × Literal) → List (String × Literal) → Prop
  | nil : Hoists fresh bound bound' [] []
  | keep {name : String} {literal : Literal} {arguments others : List (String × Literal)}
      (hfresh : ∀ mentioned ∈ literal.mentions, mentioned ∉ fresh)
      (hrest : Hoists fresh bound bound' arguments others) :
      Hoists fresh bound bound' ((name, literal) :: arguments) ((name, literal) :: others)
  | hoist {name hoisted : String} {literal : Literal} {value : Const}
      {arguments others : List (String × Literal)}
      (hvalue : literal.resolve bound = .ok (some value))
      (hheld : Named.find? hoisted bound' = some value.plain)
      (hrest : Hoists fresh bound bound' arguments others) :
      Hoists fresh bound bound' ((name, literal) :: arguments) ((name, .var hoisted) :: others)

/-- Whether two modifiers keep queries alike, but for the notation of values. -/
def Edit.Alike (edit other : Edit) : Prop := Carries (Query.Alike False) [edit] [other]

namespace Plan

variable {fresh : List String} {bound bound' : Variables} {entity : Entity}
  {arguments others : List (String × Literal)}

variable {registry : Registry} {settings : QuerySettings}

/-- Whether the same names stand for modifiers that are alike. -/
structure Naming.Alike (naming other : Naming) : Prop where
  nextIndex : naming.nextIndex = other.nextIndex
  modifiers : Named.Related Edit.Alike naming.modifiers other.modifiers

theorem Naming.Alike.registerSome {naming other : Naming} (h : naming.Alike other) (lead : String)
    {modifier modifier' : Option Edit} (hmodifier : Option.Rel Edit.Alike modifier modifier') :
    (naming.registerSome lead modifier).1 = (other.registerSome lead modifier').1
      ∧ (naming.registerSome lead modifier).2.Alike (other.registerSome lead modifier').2 := by
  cases hmodifier with
  | none => exact ⟨rfl, h⟩
  | some hedit =>
      unfold Naming.registerSome Naming.register
      rw [h.nextIndex]
      exact ⟨rfl, rfl, h.modifiers.put _ hedit⟩

end Plan

/-! ### Requests -/

namespace Engine

variable {engine : Engine}

end Engine

/-! ### Tags by a list of labels -/

namespace Blog

end Blog

namespace Engine

end Engine

/-! ### Enums, told from strings -/

namespace Blog

/-- Asks for no rows where a condition holds an enum. -/
def hidesEnums : Edit := .look fun seen =>
  let holdsEnum (condition : Condition) : Bool :=
    match condition.value with
    | some (.enum _) => true
    | _ => false
  if seen.conditions.any holdsEnum then [.limit 0] else []

/-- The engine of the blog, whose only root field hides what is asked for by enums. -/
def discreet : Engine :=
  { (answering {}).uncached with rootFields := [("tags", ⟨"tags", 3, .list, some hidesEnums⟩)] }

def enumText : String := "\x7b tags(label: history) \x7b label \x7d \x7d"

def stringText : String :=
  "query ($label: String = \"history\") \x7b tags(label: $label) \x7b label \x7d \x7d"

def enumDocument : Document where
  operations := [⟨.query, none, [],
    [.field "tags" none [("label", .enum "history")] [] [.leaf "label"]]⟩]
  fragments := []

def stringDocument : Document where
  operations := [⟨.query, none, [⟨"label", some (.string "history")⟩],
    [.field "tags" none [("label", .var "label")] [] [.leaf "label"]]⟩]
  fragments := []

theorem enum_asks : Asks (.obj [("query", .str enumText)]) enumDocument none [] := by
  refine .of_text ?_
  unfold enumText
  simp only [String.reduceToList]
  rfl

theorem string_asks : Asks (.obj [("query", .str stringText)]) stringDocument none [] := by
  refine .of_text ?_
  unfold stringText
  simp only [String.reduceToList]
  rfl

theorem enumDocument_hoists : enumDocument.Rewrites
    (Hoists ["label"] (enumDocument.bound none []) (stringDocument.bound none [])) stringDocument :=
  ⟨.cons ⟨rfl, rfl, .field (.hoist rfl rfl .nil) (.field .nil .nil .nil) .nil⟩ .nil, .nil⟩

end Blog

/-- **A modifier that tells values from their JSON forms has hoisting seen**: a tag that is asked
for by an enum is hidden, and is answered when a variable holds its name. -/
theorem Engine.hoisting_seen :
    let run := (Blog.discreet.execute (.obj [("query", .str Blog.enumText)]) .empty .fresh).1
    let other := (Blog.discreet.execute (.obj [("query", .str Blog.stringText)]) .empty .fresh).1
    Asks (.obj [("query", .str Blog.enumText)]) Blog.enumDocument none []
      ∧ Asks (.obj [("query", .str Blog.stringText)]) Blog.stringDocument none []
      ∧ Blog.enumDocument.Rewrites (Hoists ["label"] (Blog.enumDocument.bound none [])
          (Blog.stringDocument.bound none [])) Blog.stringDocument
      ∧ run.response.data.same other.response.data = false :=
  ⟨Blog.enum_asks, Blog.string_asks, Blog.enumDocument_hoists, by decide +kernel⟩

end GraphFetch

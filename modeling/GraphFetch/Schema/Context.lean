/-
What the caller knows about a request.

Hooks and custom fetches may look at named texts and at one value of each kind that
the caller puts there; a later value of the same name or kind replaces the earlier.
-/
import GraphFetch.Json.Named

namespace GraphFetch

/-- The kinds of values that a context holds one of. -/
inductive ContextKind
  | text
  | count
deriving DecidableEq

/-- The values of a kind. -/
abbrev ContextKind.Value : ContextKind → Type
  | text => String
  | count => Nat

structure RequestContext where
  named : List (String × String)
  byKind : (kind : ContextKind) → Option kind.Value

namespace RequestContext

def empty : RequestContext := ⟨[], fun _ => none⟩

instance : Inhabited RequestContext := ⟨empty⟩

/-- The text under a name. -/
def get? (context : RequestContext) (name : String) : Option String :=
  Named.find? name context.named

/-- Puts a text under a name. -/
def insert (context : RequestContext) (name value : String) : RequestContext :=
  { context with named := Named.put name value context.named }

/-- The value of a kind. -/
def getKind? (context : RequestContext) (kind : ContextKind) : Option kind.Value :=
  context.byKind kind

/-- Puts the value of a kind. -/
def insertKind (context : RequestContext) (kind : ContextKind) (value : kind.Value) :
    RequestContext :=
  { context with
    byKind := fun other => if h : kind = other then some (h ▸ value) else context.byKind other }

end RequestContext

end GraphFetch

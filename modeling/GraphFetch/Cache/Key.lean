/-
Under which key a root field is cached.

Whatever the answer depends on goes into the key: which field it is, the request
without the member that disables the cache, and the variables with their defaults.
-/
import GraphFetch.Digest.Blake3
import GraphFetch.Document.Variables
import GraphFetch.Settings.Basic

namespace GraphFetch

namespace CacheKey

/-- Whether a request disables the cache. -/
def isBypassed (payload : Json) (bypassField : String) : Bool :=
  ((payload.member? bypassField).bind Json.asBool?).getD false

/-- A request without the member that disables the cache. -/
def withoutBypass (bypassField : String) : Json → Json
  | .obj members => .obj (members.filter fun member => member.1 ≠ bypassField)
  | payload => payload

/-- What a key stands for. -/
def content (field : String) (payload : Json) (bypassField : String) (bindings : Variables) :
    Json :=
  .obj [("field", .str field), ("request", withoutBypass bypassField payload),
    ("variables", bindings.toJson)]

/-- A short text for what a key stands for. -/
def digest (field : String) (payload : Json) (bypassField : String) (bindings : Variables) :
    String :=
  Blake3.hexHash (content field payload bypassField bindings).text

/-- A key among those of one engine. -/
def text (keyPrefix digest : String) : String := keyPrefix ++ ":" ++ digest

end CacheKey

end GraphFetch

/-
Responses.

A root field that failed is null in the data and has an error that names it.  A
request that could not be run has no data at all.  How the cache behaved is told
beside the response and is no part of its text.
-/
import GraphFetch.Cache.Fetch
import GraphFetch.Json.Printer

namespace GraphFetch

structure ResponseError where
  message : String
  /-- The response key of the field that failed, if it is one field's failure. -/
  path : List String
deriving DecidableEq, Inhabited

structure Response where
  data : Json
  errors : List ResponseError
  /-- How the cache behaved, by response key. -/
  cache : List (String × CacheStatus)
deriving Inhabited

def ResponseError.toJson (error : ResponseError) : Json :=
  let path := if error.path.isEmpty then [] else [("path", Json.arr (error.path.map .str))]
  .obj (("message", .str error.message) :: path)

namespace Response

/-- The response to a request that could not be run. -/
def refused (message : String) : Response := ⟨.null, [⟨message, []⟩], []⟩

/-- How the cache behaved for a response key. -/
def cacheStatus? (response : Response) (key : String) : Option CacheStatus :=
  Named.find? key response.cache

def toJson (response : Response) : Json :=
  let errors := if response.errors.isEmpty then []
    else [("errors", Json.arr (response.errors.map ResponseError.toJson))]
  .obj (("data", response.data) :: errors)

end Response

end GraphFetch

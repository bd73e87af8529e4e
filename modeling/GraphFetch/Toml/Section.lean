/-
How the lines of a TOML document make up its tables.

A key is a path.  A dotted key goes down from the table of its section and makes
the tables it misses; a header goes down from the document.  What either may go
through or end at depends only on the origin of the tables that are already there,
so the whole matter is two walks along a path: one for dotted keys and one for
headers.
-/
import GraphFetch.Json.Named
import GraphFetch.Toml.Basic

namespace GraphFetch

namespace Toml

/-- A key: the names on the way, and the last one. -/
structure Key where
  parents : List String
  last : String
deriving DecidableEq, Inhabited

/-- Gives a new name a value. -/
def Members.insert? (members : Members) (name : String) (value : Toml) : Option Members :=
  match Named.find? name members with
  | some _ => none
  | none => some (members ++ [(name, value)])

/-! ### Dotted keys -/

/-- Goes down dotted tables and makes missing ones, then inserts a value.

A table of a header is never entered, and one passed by a header only to go on.
Neither takes the value itself; `mayEnd` says whether the walk may end here. -/
def Members.insertAt? (mayEnd : Bool) (last : String) (value : Toml) :
    List String → Members → Option Members
  | [], members => if mayEnd then members.insert? last value else none
  | name :: path, members =>
    match Named.find? name members with
    | none => do
      let inner ← Members.insertAt? true last value path []
      return members ++ [(name, .table .dotted inner)]
    | some (.table .dotted inner) => do
      let inner ← Members.insertAt? true last value path inner
      return Named.put name (.table .dotted inner) members
    | some (.table .passing inner) => do
      let inner ← Members.insertAt? false last value path inner
      return Named.put name (.table .passing inner) members
    | some (.tables earlier inner) => do
      let inner ← Members.insertAt? false last value path inner
      return Named.put name (.tables earlier inner) members
    | some _ => none

/-- The table with the entries added in order. -/
def Members.insertAll? (members : Members) (entries : List (Key × Toml)) : Option Members :=
  entries.foldlM (fun members (key, value) => members.insertAt? true key.last value key.parents)
    members

/-! ### Headers -/

/-- Goes down tables of every kind but those in braces, into the last one of repeated headers,
makes missing ones, and changes the table where the path ends. -/
def Members.changeAt? (change : Members → Option Members) : List String → Members → Option Members
  | [], members => change members
  | name :: path, members =>
    match Named.find? name members with
    | none => do
      let inner ← Members.changeAt? change path []
      return members ++ [(name, .table .passing inner)]
    | some (.tables earlier inner) => do
      let inner ← Members.changeAt? change path inner
      return Named.put name (.tables earlier inner) members
    | some (.table .braces _) => none
    | some (.table origin inner) => do
      let inner ← Members.changeAt? change path inner
      return Named.put name (.table origin inner) members
    | some _ => none

/-- A header with the entries below it. -/
structure Section where
  repeated : Bool
  key : Key
  entries : List (Key × Toml)

/-- The table that holds a section's, with it.

A table that headers only passed so far moves to the end. -/
def Section.place? (s : Section) (members : Members) : Option Members :=
  let name := s.key.last
  match s.repeated, Named.find? name members with
  | false, none => do
    let inner ← Members.insertAll? [] s.entries
    return members ++ [(name, .table .header inner)]
  | false, some (.table .passing inner) => do
    let inner ← Members.insertAll? inner s.entries
    return members.filter (fun member => member.1 ≠ name) ++ [(name, .table .header inner)]
  | true, none => do
    let inner ← Members.insertAll? [] s.entries
    return members ++ [(name, .tables [] inner)]
  | true, some (.tables earlier last) => do
    let inner ← Members.insertAll? [] s.entries
    return Named.put name (.tables (earlier ++ [last]) inner) members
  | _, _ => none

/-- The document of the entries before the first header and the sections. -/
def document? (entries : List (Key × Toml)) (sections : List Section) : Option Members := do
  let start ← Members.insertAll? [] entries
  sections.foldlM (fun members s => members.changeAt? s.place? s.key.parents) start

end Toml

end GraphFetch

/-
A blog: its rows, and the engine over them.
-/
import GraphFetch.Blog.Schema
import GraphFetch.Database.Load
import GraphFetch.Engine.Execute

namespace GraphFetch

namespace Blog

/-! ### Rows -/

def number (n : Int) : Json := .num (.int n)

def authorRow (id : Int) (name : String) (email : Option String) (born : Int) : Row :=
  [("id", number id), ("name", .str name), ("email_address", (email.map Json.str).getD .null),
    ("born", number born)]

def authors : List Row := [
  authorRow 1 "Ada Lovelace" (some "ada@example.com") 1815,
  authorRow 2 "Grace Hopper" (some "grace@example.com") 1906,
  authorRow 3 "Alan Turing" none 1912]

def postRow (id : Int) (title body : String) (author : Int) (published : Bool) : Row :=
  [("id", number id), ("title", .str title), ("body", .str body), ("author_id", number author),
    ("published", .bool published)]

def posts : List Row := [
  postRow 1 "Notes on the Analytical Engine" "The engine weaves algebraic patterns" 1 true,
  postRow 2 "Sketch of the engine" "A translation with notes" 1 false,
  postRow 3 "The first compiler" "Programs writing programs" 2 true,
  postRow 4 "Computable numbers" "On computable numbers with an application" 3 true]

def commentRow (id : Int) (text : String) (post : Int) : Row :=
  [("id", number id), ("text", .str text), ("post_id", number post)]

def comments : List Row := [
  commentRow 1 "Brilliant" 1,
  commentRow 2 "Poetical science" 1,
  commentRow 3 "Bugs!" 3]

def tagRow (id : Int) (label : String) : Row := [("id", number id), ("label", .str label)]

def tags : List Row := [tagRow 1 "history", tagRow 2 "compilers", tagRow 3 "math"]

def postTagRow (post tag : Int) : Row := [("post_id", number post), ("tag_id", number tag)]

def postTags : List Row := [
  postTagRow 1 1,
  postTagRow 1 3,
  postTagRow 3 2,
  postTagRow 3 1,
  postTagRow 4 3]

/-- The database of the blog. -/
def database (registry : Registry) : Database where
  registry
  tables := [("authors", authors), ("posts", posts), ("comments", comments), ("tags", tags),
    ("post_tags", postTags)]

/-! ### The engine -/

def rootFields : List RootField := [
  ⟨"authors", "Author", .list, none⟩,
  ⟨"author", "Author", .single, none⟩,
  ⟨"posts", "Post", .list, none⟩,
  ⟨"post", "Post", .single, none⟩,
  ⟨"tags", "Tag", .list, none⟩]

/-- The engine of the blog, with a cache and without a hook. -/
def engine (settings : Settings) : Except RegistryError Engine := do
  let registry ← registry
  Engine.build registry settings (database registry).execute rootFields (fun _ => []) true

end Blog

end GraphFetch

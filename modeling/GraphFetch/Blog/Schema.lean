/-
A blog: the schema.

Authors write posts, posts have comments and tags.  The sample has something of
everything: columns under other names than in storage, relations of both kinds and
over a pivot table, and attributes computed from columns.
-/
import GraphFetch.Schema.Builder
import GraphFetch.Text.Blank

namespace GraphFetch

namespace Blog

/-- The text in a column. -/
def textOf? (name : String) (row : Row) : Option String :=
  (Named.find? name row).bind Json.asString?

/-- The name of an author, with the address if there is one. -/
def displayName (row : Row) : Json :=
  match textOf? "name" row, textOf? "email" row with
  | some name, some email => .str (name ++ " <" ++ email ++ ">")
  | some name, none => .str name
  | none, _ => .null

/-- The first three words of a post. -/
def excerpt (row : Row) : Json :=
  let words := Text.words ((textOf? "body" row).getD "").toList
  .str (String.intercalate " " ((words.take 3).map String.ofList))

/-- A join without a pivot table. -/
def join (ownerColumn relatedColumn : String) : Join := ⟨ownerColumn, relatedColumn, none⟩

/-- A join of identifiers over the pivot table of posts and tags. -/
def joinTags (ownerColumn relatedColumn : String) : Join :=
  ⟨"id", "id", some ⟨"post_tags", ownerColumn, relatedColumn⟩⟩

def author : Registration :=
  let start : Registration := { name := "Author", table := "authors" }
  start
    |>.column "id"
    |>.column "name"
    |>.columnAs "email" "email_address"
    |>.column "born"
    |>.relation "posts" .many "Post" (join "id" "author_id")
    |>.virtual ⟨"displayName", ["name", "email"], some displayName⟩

def post : Registration :=
  let start : Registration := { name := "Post", table := "posts" }
  start
    |>.column "id"
    |>.column "title"
    |>.column "body"
    |>.columnAs "authorId" "author_id"
    |>.column "published"
    |>.relation "author" .one "Author" (join "author_id" "id")
    |>.relation "comments" .many "Comment" (join "id" "post_id")
    |>.relation "tags" .many "Tag" (joinTags "post_id" "tag_id")
    |>.virtual ⟨"excerpt", ["body"], some excerpt⟩

def comment : Registration :=
  let start : Registration := { name := "Comment", table := "comments" }
  start
    |>.column "id"
    |>.column "text"
    |>.columnAs "postId" "post_id"
    |>.relation "post" .one "Post" (join "post_id" "id")

def tag : Registration :=
  let start : Registration := { name := "Tag", table := "tags" }
  start
    |>.column "id"
    |>.column "label"
    |>.relation "posts" .many "Post" (joinTags "tag_id" "post_id")

/-- The registry of the blog. -/
def registry : Except RegistryError Registry := Registry.build [author, post, comment, tag]

end Blog

end GraphFetch

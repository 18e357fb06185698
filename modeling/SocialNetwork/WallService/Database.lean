import SocialNetwork.Lib.ByteString
import SocialNetwork.Lib.Table

/-!
# The table of posts (`db/schema.sql`) and the statements of `wall-service`

`Db` is a database that satisfies the schema, as far as posts are concerned: of a user only the id
is kept.
-/

namespace SocialNetwork.WallService

open Relational
open Text (ByteString)

structure Post where
  id : Int
  author_id : Int
  content : ByteString
  created_at : Int
deriving DecidableEq, Repr

/-- `CHECK (char_length(content) > 0)`; a text is in UTF-8 and has no NUL. -/
def contentOk : ByteString → Prop
  | .text content => 0 < content.length ∧ '\x00' ∉ content.toList
  | .other _ _ => False

instance : (content : ByteString) → Decidable (contentOk content)
  | .text _ => inferInstanceAs (Decidable (_ ∧ _))
  | .other _ _ => inferInstanceAs (Decidable False)

/-- A database that satisfies the schema, and the next value of its sequence. -/
structure Db where
  /-- The ids of the users. -/
  users : List Int
  posts : Table Post Int Post.id
  posts_id_seq : Int
  post_author : ∀ p ∈ posts.rows, p.author_id ∈ users
  content_ok : ∀ p ∈ posts.rows, contentOk p.content

namespace Db

/-- The database with these users and no posts. -/
def withUsers (users : List Int) : Db where
  users := users
  posts := Table.empty
  posts_id_seq := 1
  post_author _ h := nomatch h
  content_ok _ h := nomatch h

/-! ## Statements -/

/-- The row can be added. -/
def PostOk (db : Db) (row : Post) : Prop :=
  row.author_id ∈ db.users ∧ contentOk row.content ∧ row.id ∉ db.posts.rows.map Post.id

instance (db : Db) (row : Post) : Decidable (db.PostOk row) := inferInstanceAs (Decidable (_ ∧ _))

def addPost (db : Db) (row : Post) (h : db.PostOk row) : Db :=
  { db with
    posts := db.posts.add [row] ((db.posts.nodup_add_iff row).mpr h.2.2)
    posts_id_seq := db.posts_id_seq + 1
    post_author := by
      intro p hp
      rcases List.mem_append.mp hp with hp | hp
      · exact db.post_author p hp
      · rw [List.mem_singleton.mp hp]
        exact h.1
    content_ok := by
      intro p hp
      rcases List.mem_append.mp hp with hp | hp
      · exact db.content_ok p hp
      · rw [List.mem_singleton.mp hp]
        exact h.2.1 }

/-- `INSERT INTO posts(author_id, content) VALUES($1, $2) RETURNING id`. The sequence advances also
when the row is refused. -/
def insertPost (db : Db) (author_id : Int) (content : ByteString) (now : Int) : Db × Option Int :=
  let row : Post := ⟨db.posts_id_seq, author_id, content, now⟩
  if h : db.PostOk row then (db.addPost row h, some row.id)
  else ({ db with posts_id_seq := db.posts_id_seq + 1 }, none)

/-- `SELECT id, author_id, content FROM posts WHERE author_id = $1`, before it is ordered. -/
def selectPostsOf (db : Db) (author_id : Int) : List Post :=
  db.posts.rows.filter fun p => p.author_id = author_id

/-- `ORDER BY created_at DESC`. -/
def newestFirst (rows : List Post) : Prop :=
  rows.Pairwise fun p p' => p'.created_at ≤ p.created_at

instance (rows : List Post) : Decidable (newestFirst rows) :=
  inferInstanceAs (Decidable (List.Pairwise _ _))

/-! ## What the statements do -/

/-- The added post has the id that the sequence gave. -/
theorem insertPost_some {db db' : Db} {author_id now id : Int} {content : ByteString}
    (h : db.insertPost author_id content now = (db', some id)) :
    id = db.posts_id_seq ∧ db'.posts.rows = db.posts.rows ++ [⟨id, author_id, content, now⟩] := by
  simp only [insertPost] at h
  split_ifs at h with hok
  · cases h
    exact ⟨rfl, rfl⟩
  · cases h

end Db

end SocialNetwork.WallService

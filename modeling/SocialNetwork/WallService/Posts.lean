import SocialNetwork.ChatService.Messages
import SocialNetwork.WallService.Database

/-!
# The posts handler (`wall-service/src/posts.cpp`)

`HandleRequestThrow` as a program over the statements it executes. Bodies, exceptions and responses
are those of the other userver services.
-/

namespace SocialNetwork.WallService

open Text (ByteString)
open Userver (Json)
open ChatService (CppError HttpMethod HttpStatus Response HasMember member asInt asString stoi isInt32
  errorBody arrayBody)

/-! ## Statements -/

inductive SqlCall
  | insertPost (author_id : Int) (content : ByteString)
  | selectPostsOf (author_id : Int)
  | selectPosts
deriving DecidableEq

def SqlCall.Answer : SqlCall → Type
  | insertPost _ _ => Int
  | selectPostsOf _ => List Post
  | selectPosts => List Post

/-- C++ code of the handler. -/
abbrev Cpp := Prog SqlCall SqlCall.Answer CppError

/-- `As<int>()` of a `BIGINT`. -/
def asRowInt (n : Int) : Cpp Int := if isInt32 n then .ret n else .raise .narrowingOverflow

/-! ## Requests -/

/-- What the handler reads of a request; an argument that is absent is empty. -/
structure Request where
  method : HttpMethod
  authorization : ByteString
  body : Option Json
  user_id : ByteString
deriving DecidableEq

/-- What a post is created with. -/
structure NewPost where
  user_id : Int
  content : ByteString
deriving DecidableEq, Repr

/-- The fields of a body, `none` where one is missing. -/
def parsePost (body : Option Json) : Except CppError (Option NewPost) :=
  match body with
  | none => .error .parseException
  | some json => do
    if !(← HasMember json "user_id") then return none
    if !(← HasMember json "content") then return none
    let user_id ← asInt (← member json "user_id")
    let content ← asString (← member json "content")
    return some ⟨user_id, content⟩

/-! ## The handler -/

def created (post_id : Int) (p : NewPost) : Response :=
  ⟨.kCreated, .obj [("id", .int post_id), ("user_id", .int p.user_id), ("content", .str p.content)]⟩

def createPost (p : NewPost) : Cpp Response := do
  let result : Int ← Prog.perform (SqlCall.insertPost p.user_id p.content)
  let post_id ← asRowInt result
  pure (created post_id p)

/-- The items of a result, row by row. -/
def items : List Post → Cpp (List Json)
  | [] => pure []
  | row :: rows => do
    let id ← asRowInt row.id
    let user_id ← asRowInt row.author_id
    let rest ← items rows
    pure (.obj [("id", .int id), ("user_id", .int user_id), ("content", .str row.content)] :: rest)

def listPostsOf (user_id : Int) : Cpp Response := do
  let result : List Post ← Prog.perform (SqlCall.selectPostsOf user_id)
  let arr ← items result
  pure ⟨.kOk, arrayBody arr⟩

def listPosts : Cpp Response := do
  let result : List Post ← Prog.perform SqlCall.selectPosts
  let arr ← items result
  pure ⟨.kOk, arrayBody arr⟩

/-- What is computed without the database. -/
def liftExcept {α : Type} : Except CppError α → Cpp α
  | .ok a => .ret a
  | .error e => .raise e

def HandleRequestThrow (request : Request) : Cpp Response :=
  if request.authorization ≠ "Bearer 123" then
    pure ⟨.kUnauthorized, errorBody "Unauthorized"⟩
  else if request.method = .kPost then do
    match ← liftExcept (parsePost request.body) with
    | none => pure ⟨.kBadRequest, errorBody "invalid data"⟩
    | some p => createPost p
  else if request.method = .kGet then
    if request.user_id ≠ "" then do
      let user_id ← liftExcept (stoi request.user_id)
      listPostsOf user_id
    else listPosts
  else pure ⟨.kMethodNotAllowed, errorBody "Method not allowed"⟩

/-! ## What the statements do -/

/-- What the database leaves open: the time, and the order of posts of one time. -/
structure Choice where
  now : Int
  rows : List Post
deriving DecidableEq

/-- The rows may be what a query of these posts returns. -/
def Choice.orders (ω : Choice) (posts : List Post) : Prop :=
  ω.rows.Perm posts ∧ Db.newestFirst ω.rows

instance (ω : Choice) (posts : List Post) : Decidable (ω.orders posts) :=
  inferInstanceAs (Decidable (_ ∧ _))

/-- One statement; `none` where the database may not choose so. -/
def Db.execute (ω : Choice) : (c : SqlCall) → Db → Option (Db × Except CppError c.Answer)
  | .insertPost author_id content, db =>
    match db.insertPost author_id content ω.now with
    | (db, some id) => some (db, .ok id)
    | (db, none) => some (db, .error .sqlError)
  | .selectPostsOf author_id, db =>
    if ω.orders (db.selectPostsOf author_id) then some (db, .ok ω.rows) else none
  | .selectPosts, db => if ω.orders db.posts.rows then some (db, .ok ω.rows) else none

/-! ## What a result is encoded as -/

/-- The item of a post. -/
def item (p : Post) : Json :=
  .obj [("id", .int p.id), ("user_id", .int p.author_id), ("content", .str p.content)]

/-- The ids of a post fit into `int`. -/
def fits (p : Post) : Prop := isInt32 p.id ∧ isInt32 p.author_id

instance (p : Post) : Decidable (fits p) := inferInstanceAs (Decidable (_ ∧ _))

theorem asRowInt_bind {α : Type} (n : Int) (f : Int → Cpp α) :
    asRowInt n >>= f = if isInt32 n then f n else .raise .narrowingOverflow := by
  unfold asRowInt
  split_ifs <;> rfl

/-- A result is encoded row by row, if all its ids fit. -/
theorem items_eq (rows : List Post) :
    items rows =
      if ∀ p ∈ rows, fits p then .ret (rows.map item) else .raise .narrowingOverflow := by
  induction rows with
  | nil => rfl
  | cons row rows ih =>
    rw [items, asRowInt_bind, asRowInt_bind, ih]
    by_cases hrow : fits row
    · rw [if_pos hrow.1, if_pos hrow.2]
      by_cases hrows : ∀ p ∈ rows, fits p
      · rw [if_pos hrows, if_pos (List.forall_mem_cons.mpr ⟨hrow, hrows⟩)]
        rfl
      · rw [if_neg hrows, if_neg fun h => hrows (List.forall_mem_cons.mp h).2]
        rfl
    · rw [if_neg (fun h => hrow (List.forall_mem_cons.mp h).1)]
      -- one of the two conversions raises
      rw [fits, not_and_or] at hrow
      rcases hrow with hid | hauthor
      · rw [if_neg hid]
      · rw [if_neg hauthor]
        split_ifs <;> rfl

/-! ## What a request asks for -/

/-- The post that a request creates. -/
def Request.post? (request : Request) : Option NewPost :=
  if request.authorization = "Bearer 123" ∧ request.method = .kPost then
    match parsePost request.body with
    | .ok p => p
    | .error _ => none
  else none

theorem handle_post {request : Request} {p : NewPost} (h : request.post? = some p) :
    HandleRequestThrow request = createPost p := by
  unfold Request.post? at h
  split_ifs at h with hauth
  split at h
  · next q hq =>
    rw [h] at hq
    rw [HandleRequestThrow, if_neg (not_not.mpr hauth.1), if_pos hauth.2, hq]
    rfl
  · cases h

/-- A `GET` with the token, of one user's posts or of all posts. -/
theorem handle_get {request : Request} (hauth : request.authorization = "Bearer 123")
    (hget : request.method = .kGet) :
    HandleRequestThrow request =
      if request.user_id ≠ "" then liftExcept (stoi request.user_id) >>= listPostsOf
      else listPosts := by
  rw [HandleRequestThrow, if_neg (not_not.mpr hauth), if_neg (by rw [hget]; decide), if_pos hget]

end SocialNetwork.WallService

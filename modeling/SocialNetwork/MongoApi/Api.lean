import SocialNetwork.Lib.Prog
import SocialNetwork.MongoApi.Database
import SocialNetwork.MongoApi.Json

/-!
# The endpoints (`mongo-api/api.py`)

Each endpoint is a program over the calls it makes to Mongo, to Redis and to the clock. Its
arguments are what FastAPI has parsed, and its result is the value it returns, with the headers
it set. The loop of `cache_delete_prefix` over `scan_iter` is one call that takes several steps.
-/

namespace SocialNetwork.MongoApi

open DocStore

/-! ## Calls -/

inductive Call
  | query (q : Query)
  | find_one (coll : Coll) (filter : Filter)
  | insert_one (coll : Coll) (doc : Doc)
  | update_one (coll : Coll) (filter : Filter) (update : Update)
  | delete_one (coll : Coll) (filter : Filter)
  | get (key : String)
  | setex (key : String) (ttl : Nat) (value : Value)
  /-- `for key in scan_iter(f"{prefix}*"): delete(key)`. -/
  | delete_scanned (prefix_ : String)
  | incr (key : String)
  | expire (key : String) (ttl : Nat)
  /-- `datetime.utcnow()`, in milliseconds. -/
  | utcnow
  /-- `time.time()`, in milliseconds. -/
  | time

/-- What a call answers: documents, an id, the number of documents matched or deleted, a value or
a number. -/
def Call.Answer : Call → Type
  | query _ => List Doc
  | find_one _ _ => Option Doc
  | insert_one _ _ => ObjectId
  | update_one _ _ _ | delete_one _ _ => Nat
  | get _ => Option Value
  | setex _ _ _ | delete_scanned _ | expire _ _ => Unit
  | incr _ => Int
  | utcnow | time => Nat

/-- Python code of the API. -/
abbrev Api := Prog Call Call.Answer PyError

/-- What an endpoint returns, and the headers it sets. -/
structure Reply where
  headers : List (String × String)
  body : Value
deriving DecidableEq

def liftExcept {α : Type} : Except PyError α → Api α
  | .ok a => .ret a
  | .error e => .raise e

def find (coll : Coll) (filter : Filter) (sort : List (String × Bool)) : Api (List Doc) :=
  Prog.perform (Call.query (.find coll filter sort))

def find_one (coll : Coll) (id : ObjectId) : Api (Option Doc) :=
  Prog.perform (Call.find_one coll (.field "_id" (.oid id)))

/-! ## Cache -/

/-- Seconds until an entry expires. -/
def CACHE_TTL : Nat := 60
/-- Messages of one address in one window. -/
def RATE_LIMIT : Int := 10
/-- Seconds of a window. -/
def RATE_WINDOW : Nat := 60

def cache_get (key : String) : Api (Option Value) :=
  Prog.tryCatch
    (do
      let value : Option Value ← Prog.perform (Call.get key)
      pure (value.bind json_loads))
    fun _ => pure none

def cache_set (key : String) (value : Value) : Api Unit :=
  Prog.tryCatch (Prog.perform (Call.setex key CACHE_TTL (json_dumps value))) fun _ => pure ()

def cache_delete_prefix (prefix_ : String) : Api Unit :=
  Prog.tryCatch (Prog.perform (Call.delete_scanned prefix_)) fun _ => pure ()

def invalidate_users_cache : Api Unit := cache_delete_prefix "users:"

def invalidate_posts_cache : Api Unit := do
  cache_delete_prefix "posts:"
  cache_delete_prefix "stats:"

def invalidate_messages_cache : Api Unit := cache_delete_prefix "messages:"

def check_rate_limit (client : Option String) : String → Api (List (String × String)) :=
  fun key_prefix => do
    let client_ip := client.getD "unknown"
    let now : Nat ← Prog.perform Call.time
    let window := now / (RATE_WINDOW * 1000)
    let key := "rate_limit:" ++ key_prefix ++ ":" ++ client_ip ++ ":" ++ toString window
    let current : Int ← Prog.perform (Call.incr key)
    if current = 1 then Prog.perform (Call.expire key RATE_WINDOW)
    let remaining := max (RATE_LIMIT - current) 0
    let reset := (window + 1) * RATE_WINDOW
    let headers := [("X-RateLimit-Limit", toString RATE_LIMIT),
      ("X-RateLimit-Remaining", toString remaining), ("X-RateLimit-Reset", toString reset)]
    if RATE_LIMIT < current then
      Prog.raise (.httpException 429 "Too Many Requests" headers)
    else pure headers

/-! ## Requests -/

structure UserCreate where
  login : String
  email : String
  password : String
  first_name : String
  last_name : String
  age : Option Int
  interests : List String
deriving DecidableEq, Repr

structure UserUpdate where
  first_name : Option String
  last_name : Option String
  age : Option Int
  interests : Option (List String)
deriving DecidableEq, Repr

structure PostCreate where
  author_id : String
  content : String
  tags : List String
deriving DecidableEq, Repr

structure MessageCreate where
  from_user_id : String
  to_user_id : String
  text : String
deriving DecidableEq, Repr

def strings (xs : List String) : Value := .arr (xs.map .str)

/-- `user.model_dump()`. -/
def UserCreate.model_dump (user : UserCreate) : Doc :=
  [("login", .str user.login), ("email", .str user.email), ("password", .str user.password),
    ("first_name", .str user.first_name), ("last_name", .str user.last_name),
    ("age", (user.age.map .int).getD .null), ("interests", strings user.interests)]

/-- The fields of `data.model_dump()` that are not `None`. -/
def UserUpdate.update_data (data : UserUpdate) : Doc :=
  [("first_name", data.first_name.map .str), ("last_name", data.last_name.map .str),
    ("age", data.age.map .int), ("interests", data.interests.map strings)].filterMap
    fun x => x.2.map fun v => (x.1, v)

variable [Bson]

/-! ## Users -/

/-- How an f-string writes an optional argument. -/
def fmt (o : Option String) : String := o.getD "None"

/-- The key of a listing of users. -/
def usersKey (login : Option String) (min_age : Option Int) : String :=
  "users:login=" ++ fmt login ++ ":min_age=" ++ fmt (min_age.map toString)

/-- A text argument that is there and not empty. -/
def nonEmpty (o : Option String) : Option String := o.filter fun s => s ≠ ""

def usersQuery (login : Option String) (min_age : Option Int) : Filter :=
  .all (((nonEmpty login).map fun l => Cond.eq "login" (.str l)).toList ++
    (min_age.map fun n => Cond.gt "age" n).toList)

/-- A list of documents. -/
def listOf (docs : List Doc) : Value := .arr (docs.map .obj)

/-- `GET /users`. -/
def get_users (login : Option String) (min_age : Option Int) : Api Reply := do
  let cache_key := usersKey login min_age
  match ← cache_get cache_key with
  | some cached => pure ⟨[("X-Cache", "HIT")], cached⟩
  | none => do
    let rows ← find .users (usersQuery login min_age) []
    let users ← liftExcept (rows.mapM to_json)
    cache_set cache_key (listOf users)
    pure ⟨[("X-Cache", "MISS")], listOf users⟩

/-- `to_json` of a document that was read back. -/
def replyWith (doc : Option Doc) : Api Reply :=
  match doc with
  | none => Prog.raise .typeError
  | some doc => do
    let json ← liftExcept (to_json doc)
    pure ⟨[], .obj json⟩

/-- `POST /users`. -/
def create_user (user : UserCreate) : Api Reply := do
  let created_at : Nat ← Prog.perform Call.utcnow
  let doc := user.model_dump ++ [("created_at", .date created_at)]
  let inserted_id : ObjectId ←
    Prog.tryCatch (Prog.perform (Call.insert_one .users doc)) fun e =>
      Prog.raise (.httpException 400 e.str [])
  invalidate_users_cache
  let created ← find_one .users inserted_id
  replyWith created

/-- What `create_user` does when its user is inserted. -/
def afterUserInsert (inserted_id : ObjectId) : Api Reply := do
  invalidate_users_cache
  let created ← find_one .users inserted_id
  replyWith created

/-- What it does when it has read the clock. -/
def insertUser (user : UserCreate) (created_at : Nat) : Api Reply :=
  Prog.tryCatch (Prog.perform
      (Call.insert_one .users (user.model_dump ++ [("created_at", .date created_at)])))
    (fun e => Prog.raise (.httpException 400 e.str [])) >>= afterUserInsert

/-- `create_user` in its two parts. -/
theorem create_user_eq (user : UserCreate) :
    create_user user = Prog.perform Call.utcnow >>= insertUser user := rfl

/-- `PATCH /users/{user_id}`. -/
def update_user (user_id : String) (data : UserUpdate) : Api Reply := do
  let update_data := data.update_data
  if update_data = [] then Prog.raise (.httpException 400 "No fields to update" [])
  else do
    let user_object_id ← liftExcept (oid user_id)
    let matched_count : Nat ← Prog.perform
      (Call.update_one .users (.field "_id" (.oid user_object_id)) { set := update_data })
    if matched_count = 0 then Prog.raise (.httpException 404 "User not found" [])
    else do
      invalidate_users_cache
      invalidate_posts_cache
      invalidate_messages_cache
      let user ← find_one .users user_object_id
      replyWith user

def deleted : Reply := ⟨[], .obj [("status", .str "deleted")]⟩

/-- `DELETE /users/{user_id}`. -/
def delete_user (user_id : String) : Api Reply := do
  let user_object_id ← liftExcept (oid user_id)
  let deleted_count : Nat ←
    Prog.perform (Call.delete_one .users (.field "_id" (.oid user_object_id)))
  if deleted_count = 0 then Prog.raise (.httpException 404 "User not found" [])
  else do
    invalidate_users_cache
    invalidate_posts_cache
    invalidate_messages_cache
    pure deleted

/-! ## Posts -/

/-- The key of a listing of posts. -/
def postsKey (author_id tag : Option String) : String :=
  "posts:author_id=" ++ fmt author_id ++ ":tag=" ++ fmt tag

def postsQuery (author_id : Option ObjectId) (tag : Option String) : Filter :=
  .all ((author_id.map fun a => Cond.eq "author_id" (.oid a)).toList ++
    ((nonEmpty tag).map fun t => Cond.isIn "tags" [.str t]).toList)

/-- `oid(author_id)`, where there is one. -/
def optionalOid (value : Option String) : Except PyError (Option ObjectId) :=
  match nonEmpty value with
  | none => .ok none
  | some v => (oid v).map some

/-- `GET /posts`. -/
def get_posts (author_id tag : Option String) : Api Reply := do
  let cache_key := postsKey author_id tag
  match ← cache_get cache_key with
  | some cached => pure ⟨[("X-Cache", "HIT")], cached⟩
  | none => do
    let author ← liftExcept (optionalOid author_id)
    let rows ← find .posts (postsQuery author tag) [("created_at", true)]
    let posts ← liftExcept (rows.mapM to_json)
    cache_set cache_key (listOf posts)
    pure ⟨[("X-Cache", "MISS")], listOf posts⟩

/-- `POST /posts`. -/
def create_post (post : PostCreate) : Api Reply := do
  let author_object_id ← liftExcept (oid post.author_id)
  let author ← find_one .users author_object_id
  if (author.getD []).isEmpty then Prog.raise (.httpException 404 "Author not found" [])
  else do
    let created_at : Nat ← Prog.perform Call.utcnow
    let doc : Doc := [("author_id", .oid author_object_id), ("content", .str post.content),
      ("tags", strings post.tags), ("likes", .arr []), ("comments", .arr []),
      ("created_at", .date created_at)]
    let inserted_id : ObjectId ← Prog.perform (Call.insert_one .posts doc)
    invalidate_posts_cache
    let created ← find_one .posts inserted_id
    replyWith created

/-- What follows the update of a post. -/
def afterPostUpdate (matched_count : Nat) (post_id : ObjectId) : Api Reply :=
  if matched_count = 0 then Prog.raise (.httpException 404 "Post not found" [])
  else do
    invalidate_posts_cache
    let post ← find_one .posts post_id
    replyWith post

def like_post (post_id user_id : String) : Api Reply := do
  let post ← liftExcept (oid post_id)
  let user ← liftExcept (oid user_id)
  let matched_count : Nat ← Prog.perform
    (Call.update_one .posts (.field "_id" (.oid post)) { addToSet := [("likes", .oid user)] })
  afterPostUpdate matched_count post

def unlike_post (post_id user_id : String) : Api Reply := do
  let post ← liftExcept (oid post_id)
  let user ← liftExcept (oid user_id)
  let matched_count : Nat ← Prog.perform
    (Call.update_one .posts (.field "_id" (.oid post)) { pull := [("likes", .oid user)] })
  afterPostUpdate matched_count post

def add_comment (post_id user_id text : String) : Api Reply := do
  let user ← liftExcept (oid user_id)
  let created_at : Nat ← Prog.perform Call.utcnow
  let comment : Value :=
    .obj [("user_id", .oid user), ("text", .str text), ("created_at", .date created_at)]
  let post ← liftExcept (oid post_id)
  let matched_count : Nat ← Prog.perform
    (Call.update_one .posts (.field "_id" (.oid post)) { push := [("comments", comment)] })
  afterPostUpdate matched_count post

/-! ## Messages -/

/-- `GET /messages/{user_id}`. -/
def get_messages (user_id : String) : Api Reply := do
  let user_oid ← liftExcept (oid user_id)
  let rows ← find .messages
    (.any [.eq "from_user_id" (.oid user_oid), .eq "to_user_id" (.oid user_oid)])
    [("created_at", true)]
  let messages ← liftExcept (rows.mapM to_json)
  pure ⟨[], listOf messages⟩

/-- `POST /messages`. -/
def create_message (message : MessageCreate) (client : Option String) : Api Reply := do
  let headers ← check_rate_limit client "create_message"
  let from_id ← liftExcept (oid message.from_user_id)
  let to_id ← liftExcept (oid message.to_user_id)
  let sender ← find_one .users from_id
  if (sender.getD []).isEmpty then Prog.raise (.httpException 404 "Sender not found" [])
  else do
    let receiver ← find_one .users to_id
    if (receiver.getD []).isEmpty then Prog.raise (.httpException 404 "Receiver not found" [])
    else do
      let created_at : Nat ← Prog.perform Call.utcnow
      let doc : Doc := [("from_user_id", .oid from_id), ("to_user_id", .oid to_id),
        ("text", .str message.text), ("is_read", .bool false), ("created_at", .date created_at)]
      let inserted_id : ObjectId ← Prog.perform (Call.insert_one .messages doc)
      invalidate_messages_cache
      let created ← find_one .messages inserted_id
      let reply ← replyWith created
      pure { reply with headers := headers }

def mark_message_as_read (message_id : String) : Api Reply := do
  let message_object_id ← liftExcept (oid message_id)
  let matched_count : Nat ← Prog.perform (Call.update_one .messages
    (.field "_id" (.oid message_object_id)) { set := [("is_read", .bool true)] })
  if matched_count = 0 then Prog.raise (.httpException 404 "Message not found" [])
  else do
    invalidate_messages_cache
    let message ← find_one .messages message_object_id
    replyWith message

def delete_message (message_id : String) : Api Reply := do
  let message_object_id ← liftExcept (oid message_id)
  let deleted_count : Nat ←
    Prog.perform (Call.delete_one .messages (.field "_id" (.oid message_object_id)))
  if deleted_count = 0 then Prog.raise (.httpException 404 "Message not found" [])
  else do
    invalidate_messages_cache
    pure deleted

/-! ## Statistics -/

def statsKey : String := "stats:posts-by-users"

/-- The stages of the statistics. -/
def pipeline : Pipeline Coll where
  stages :=
    [.match_ (.all [.ne "content" (.str "")]),
      .group (.field ["author_id"]) [("posts_count", .int 1), ("likes_count", .size (.field ["likes"]))],
      .lookup .users "_id" "_id" "author",
      .unwind "author",
      .project ["posts_count", "likes_count"]
        [("user_id", .toString (.field ["_id"])), ("login", .field ["author", "login"])]]
  sort := [("posts_count", true), ("likes_count", true)]

def posts_by_users : Api Reply := do
  match ← cache_get statsKey with
  | some cached => pure ⟨[("X-Cache", "HIT")], cached⟩
  | none => do
    let result : List Doc ← Prog.perform (Call.query (.aggregate .posts pipeline))
    cache_set statsKey (listOf result)
    pure ⟨[("X-Cache", "MISS")], listOf result⟩

/-! ## Routes -/

inductive Request
  | get_users (login : Option String) (min_age : Option Int)
  | create_user (user : UserCreate)
  | update_user (user_id : String) (data : UserUpdate)
  | delete_user (user_id : String)
  | get_posts (author_id tag : Option String)
  | create_post (post : PostCreate)
  | like_post (post_id user_id : String)
  | unlike_post (post_id user_id : String)
  | add_comment (post_id user_id text : String)
  | get_messages (user_id : String)
  | create_message (message : MessageCreate) (client : Option String)
  | mark_message_as_read (message_id : String)
  | delete_message (message_id : String)
  | posts_by_users
deriving DecidableEq, Repr

/-- The handler of a request. -/
def handle : Request → Api Reply
  | .get_users login min_age => get_users login min_age
  | .create_user user => create_user user
  | .update_user user_id data => update_user user_id data
  | .delete_user user_id => delete_user user_id
  | .get_posts author_id tag => get_posts author_id tag
  | .create_post post => create_post post
  | .like_post post_id user_id => like_post post_id user_id
  | .unlike_post post_id user_id => unlike_post post_id user_id
  | .add_comment post_id user_id text => add_comment post_id user_id text
  | .get_messages user_id => get_messages user_id
  | .create_message message client => create_message message client
  | .mark_message_as_read message_id => mark_message_as_read message_id
  | .delete_message message_id => delete_message message_id
  | .posts_by_users => posts_by_users

end SocialNetwork.MongoApi

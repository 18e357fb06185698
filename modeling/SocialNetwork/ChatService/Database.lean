import SocialNetwork.Lib.ByteString
import SocialNetwork.Lib.Table

/-!
# The chat tables (`db/schema.sql`) and the statements of `chat-service`

`Db` is a database that satisfies the schema: primary keys, foreign keys and checks are its
fields. Each statement of `messages.cpp` is one atomic autocommitted step on it. Columns that
the service neither writes nor reads (`joined_at`, `created_at` of a chat, everything of a user
but its id) are left out.
-/

namespace SocialNetwork.ChatService

open Relational
open Text (ByteString)

/-! ## Schema -/

structure Chat where
  id : Int
  title : String
  is_group : Bool
deriving DecidableEq, Repr

structure ChatMember where
  chat_id : Int
  user_id : Int
deriving DecidableEq, Repr

structure Message where
  id : Int
  chat_id : Int
  sender_id : Int
  content : ByteString
  created_at : Int
deriving DecidableEq, Repr

/-- `PRIMARY KEY (chat_id, user_id)`. -/
def ChatMember.key (m : ChatMember) : Int × Int := (m.chat_id, m.user_id)

/-- `CHECK (char_length(title) > 0)` and `VARCHAR(255)`. -/
def titleOk (title : String) : Prop := 0 < title.length ∧ title.length ≤ 255

/-- `CHECK (char_length(content) > 0)`; a text is in UTF-8 and has no NUL. -/
def contentOk : ByteString → Prop
  | .text content => 0 < content.length ∧ '\x00' ∉ content.toList
  | .other _ _ => False

instance (title : String) : Decidable (titleOk title) := inferInstanceAs (Decidable (_ ∧ _))

instance : (content : ByteString) → Decidable (contentOk content)
  | .text _ => inferInstanceAs (Decidable (_ ∧ _))
  | .other _ _ => inferInstanceAs (Decidable False)

/-- A database that satisfies the schema, and the next values of its sequences. -/
structure Db where
  /-- The ids of the users. -/
  users : List Int
  chats : Table Chat Int Chat.id
  chat_members : Table ChatMember (Int × Int) ChatMember.key
  messages : Table Message Int Message.id
  chats_id_seq : Int
  messages_id_seq : Int
  title_ok : ∀ c ∈ chats.rows, titleOk c.title
  member_chat : ∀ m ∈ chat_members.rows, m.chat_id ∈ chats.rows.map Chat.id
  member_user : ∀ m ∈ chat_members.rows, m.user_id ∈ users
  message_chat : ∀ m ∈ messages.rows, m.chat_id ∈ chats.rows.map Chat.id
  message_sender : ∀ m ∈ messages.rows, m.sender_id ∈ users
  content_ok : ∀ m ∈ messages.rows, contentOk m.content

namespace Db

/-- The database with these users, no chats and no messages. -/
def withUsers (users : List Int) : Db where
  users := users
  chats := Table.empty
  chat_members := Table.empty
  messages := Table.empty
  chats_id_seq := 1
  messages_id_seq := 1
  title_ok _ h := by cases h
  member_chat _ h := by cases h
  member_user _ h := by cases h
  message_chat _ h := by cases h
  message_sender _ h := by cases h
  content_ok _ h := by cases h

/-- The users are members of the chat. -/
def isMember (db : Db) (chat_id user_id : Int) : Bool :=
  decide ((⟨chat_id, user_id⟩ : ChatMember) ∈ db.chat_members.rows)

/-- The members of a chat. -/
def members (db : Db) (chat_id : Int) : List Int :=
  (db.chat_members.rows.filter fun m => decide (m.chat_id = chat_id)).map ChatMember.user_id

/-! ## Statements -/

/-- `SELECT c.id FROM chats c JOIN chat_members cm1 ON … JOIN chat_members cm2 ON …
WHERE c.is_group = FALSE`, before the `LIMIT 1`. -/
def selectChat (db : Db) (from_ to_ : Int) : List Int :=
  let joined := join (fun c cm1 => decide (cm1.chat_id = c.id ∧ cm1.user_id = from_))
    db.chats.rows db.chat_members.rows
  let joined := join (fun x cm2 => decide (cm2.chat_id = x.1.id ∧ cm2.user_id = to_))
    joined db.chat_members.rows
  (joined.filter fun x => !x.1.1.is_group).map fun x => x.1.1.id

/-- `INSERT INTO chats(title, is_group) VALUES($1, FALSE) RETURNING id`. The sequence advances
also when the statement fails. -/
def insertChat (db : Db) (title : String) : Db × Option Int :=
  let row : Chat := ⟨db.chats_id_seq, title, false⟩
  if h : titleOk title ∧ ((db.chats.rows ++ [row]).map Chat.id).Nodup then
    ({ db with
        chats := db.chats.add [row] h.2
        chats_id_seq := db.chats_id_seq + 1
        title_ok := fun c hc => by
          rcases List.mem_append.mp hc with hc | hc
          · exact db.title_ok c hc
          · rw [List.mem_singleton.mp hc]
            exact h.1
        member_chat := fun m hm => by
          rw [Table.add_rows, List.map_append]
          exact List.mem_append_left _ (db.member_chat m hm)
        message_chat := fun m hm => by
          rw [Table.add_rows, List.map_append]
          exact List.mem_append_left _ (db.message_chat m hm) },
      some db.chats_id_seq)
  else ({ db with chats_id_seq := db.chats_id_seq + 1 }, none)

/-- `INSERT INTO chat_members(chat_id, user_id) VALUES($1, $2), ($1, $3)`. -/
def insertMembers (db : Db) (chat_id from_ to_ : Int) : Db × Option Unit :=
  let new : List ChatMember := [⟨chat_id, from_⟩, ⟨chat_id, to_⟩]
  if h : (chat_id ∈ db.chats.rows.map Chat.id ∧ from_ ∈ db.users ∧ to_ ∈ db.users) ∧
      ((db.chat_members.rows ++ new).map ChatMember.key).Nodup then
    ({ db with
        chat_members := db.chat_members.add new h.2
        member_chat := fun m hm => by
          rcases List.mem_append.mp hm with hm | hm
          · exact db.member_chat m hm
          · rcases List.mem_cons.mp hm with rfl | hm
            · exact h.1.1
            · rw [List.mem_singleton.mp hm]
              exact h.1.1
        member_user := fun m hm => by
          rcases List.mem_append.mp hm with hm | hm
          · exact db.member_user m hm
          · rcases List.mem_cons.mp hm with rfl | hm
            · exact h.1.2.1
            · rw [List.mem_singleton.mp hm]
              exact h.1.2.2 },
      some ())
  else (db, none)

/-- `INSERT INTO messages(chat_id, sender_id, content) VALUES($1, $2, $3) RETURNING id`. -/
def insertMessage (db : Db) (chat_id sender_id : Int) (content : ByteString) (now : Int) :
    Db × Option Int :=
  let row : Message := ⟨db.messages_id_seq, chat_id, sender_id, content, now⟩
  if h : (chat_id ∈ db.chats.rows.map Chat.id ∧ sender_id ∈ db.users ∧ contentOk content) ∧
      ((db.messages.rows ++ [row]).map Message.id).Nodup then
    ({ db with
        messages := db.messages.add [row] h.2
        messages_id_seq := db.messages_id_seq + 1
        message_chat := fun m hm => by
          rcases List.mem_append.mp hm with hm | hm
          · exact db.message_chat m hm
          · rw [List.mem_singleton.mp hm]
            exact h.1.1
        message_sender := fun m hm => by
          rcases List.mem_append.mp hm with hm | hm
          · exact db.message_sender m hm
          · rw [List.mem_singleton.mp hm]
            exact h.1.2.1
        content_ok := fun m hm => by
          rcases List.mem_append.mp hm with hm | hm
          · exact db.content_ok m hm
          · rw [List.mem_singleton.mp hm]
            exact h.1.2.2 },
      some db.messages_id_seq)
  else ({ db with messages_id_seq := db.messages_id_seq + 1 }, none)

/-- `SELECT m.… FROM messages m JOIN chat_members cm ON cm.chat_id = m.chat_id
WHERE cm.user_id = $1`, before it is ordered. -/
def selectMessages (db : Db) (user_id : Int) : List Message :=
  (join (fun m cm => decide (cm.chat_id = m.chat_id ∧ cm.user_id = user_id))
    db.messages.rows db.chat_members.rows).map Prod.fst

/-- `ORDER BY m.created_at DESC`. -/
def newestFirst (rows : List Message) : Prop :=
  rows.Pairwise fun m m' => m'.created_at ≤ m.created_at

instance (rows : List Message) : Decidable (newestFirst rows) :=
  inferInstanceAs (Decidable (List.Pairwise _ _))

/-! ## What the statements write -/

/-- The same chats, members and messages; the sequences may have advanced. -/
structure SameRows (db db' : Db) : Prop where
  chats : db'.chats.rows = db.chats.rows
  chat_members : db'.chat_members.rows = db.chat_members.rows
  messages : db'.messages.rows = db.messages.rows

/-- A created chat has a new id. -/
theorem insertChat_some {db db' : Db} {title : String} {id : Int}
    (h : db.insertChat title = (db', some id)) :
    id ∉ db.chats.rows.map Chat.id ∧ db'.chats.rows = db.chats.rows ++ [⟨id, title, false⟩] ∧
      db'.chat_members.rows = db.chat_members.rows ∧ db'.messages.rows = db.messages.rows := by
  simp only [insertChat] at h
  split_ifs at h with hok
  · cases h
    exact ⟨Table.key_notMem_of_add hok.2 (List.mem_singleton_self _), rfl, rfl, rfl⟩
  · cases h

theorem insertChat_none {db db' : Db} {title : String} (h : db.insertChat title = (db', none)) :
    SameRows db db' := by
  simp only [insertChat] at h
  split_ifs at h with hok
  · cases h
  · cases h
    exact ⟨rfl, rfl, rfl⟩

/-- The members added to a chat are two users. -/
theorem insertMembers_some {db db' : Db} {chat_id from_ to_ : Int} {u : Unit}
    (h : db.insertMembers chat_id from_ to_ = (db', some u)) :
    from_ ≠ to_ ∧ db'.chats.rows = db.chats.rows ∧
      db'.chat_members.rows = db.chat_members.rows ++ [⟨chat_id, from_⟩, ⟨chat_id, to_⟩] ∧
      db'.messages.rows = db.messages.rows := by
  simp only [insertMembers] at h
  split_ifs at h with hok
  · cases h
    refine ⟨fun heq => ?_, rfl, rfl, rfl⟩
    have hnodup := hok.2
    rw [List.map_append, List.nodup_append] at hnodup
    simp [heq, ChatMember.key] at hnodup
  · cases h

theorem insertMembers_none {db db' : Db} {chat_id from_ to_ : Int}
    (h : db.insertMembers chat_id from_ to_ = (db', none)) : db' = db := by
  simp only [insertMembers] at h
  split_ifs at h with hok
  · cases h
  · cases h
    rfl

theorem insertMessage_some {db db' : Db} {chat_id sender_id : Int} {content : ByteString} {now id : Int}
    (h : db.insertMessage chat_id sender_id content now = (db', some id)) :
    db'.chats.rows = db.chats.rows ∧ db'.chat_members.rows = db.chat_members.rows ∧
      db'.messages.rows = db.messages.rows ++ [⟨id, chat_id, sender_id, content, now⟩] := by
  simp only [insertMessage] at h
  split_ifs at h with hok
  · cases h
    exact ⟨rfl, rfl, rfl⟩
  · cases h

theorem insertMessage_none {db db' : Db} {chat_id sender_id : Int} {content : ByteString} {now : Int}
    (h : db.insertMessage chat_id sender_id content now = (db', none)) : SameRows db db' := by
  simp only [insertMessage] at h
  split_ifs at h with hok
  · cases h
  · cases h
    exact ⟨rfl, rfl, rfl⟩

/-! ## What the statements read -/

theorem isMember_iff {db : Db} {chat_id user_id : Int} :
    db.isMember chat_id user_id = true ↔
      (⟨chat_id, user_id⟩ : ChatMember) ∈ db.chat_members.rows := decide_eq_true_iff

theorem mem_members {db : Db} {chat_id user_id : Int} :
    user_id ∈ db.members chat_id ↔ db.isMember chat_id user_id = true := by
  rw [isMember_iff, members, List.mem_map]
  constructor
  · rintro ⟨⟨c, u⟩, hm, rfl⟩
    rw [List.mem_filter, decide_eq_true_eq] at hm
    rw [← hm.2]
    exact hm.1
  · intro hm
    exact ⟨⟨chat_id, user_id⟩, List.mem_filter.mpr ⟨hm, decide_eq_true rfl⟩, rfl⟩

/-- The lookup finds the chats that are not groups and have both members. -/
theorem mem_selectChat {db : Db} {from_ to_ id : Int} :
    id ∈ db.selectChat from_ to_ ↔
      (∃ c ∈ db.chats.rows, c.id = id ∧ c.is_group = false) ∧
        db.isMember id from_ = true ∧ db.isMember id to_ = true := by
  simp only [selectChat, List.mem_map, List.mem_filter, Bool.not_eq_true']
  constructor
  · rintro ⟨⟨⟨c, m₁⟩, m₂⟩, ⟨hjoin, hgroup⟩, rfl⟩
    obtain ⟨h₁, hm₂, hon₂⟩ := mem_join.mp hjoin
    obtain ⟨hc, hm₁, hon₁⟩ := mem_join.mp h₁
    rw [decide_eq_true_eq] at hon₁ hon₂
    refine ⟨⟨c, hc, rfl, hgroup⟩, isMember_iff.mpr ?_, isMember_iff.mpr ?_⟩
    · rw [← hon₁.1, ← hon₁.2]
      exact hm₁
    · rw [← hon₂.1, ← hon₂.2]
      exact hm₂
  · rintro ⟨⟨c, hc, rfl, hgroup⟩, hfrom, hto⟩
    refine ⟨((c, ⟨c.id, from_⟩), ⟨c.id, to_⟩), ⟨?_, hgroup⟩, rfl⟩
    refine mem_join.mpr ⟨mem_join.mpr ⟨hc, isMember_iff.mp hfrom, ?_⟩, isMember_iff.mp hto, ?_⟩
    · exact decide_eq_true ⟨rfl, rfl⟩
    · exact decide_eq_true ⟨rfl, rfl⟩

/-- A message is read by the members of its chat, once by each. -/
theorem count_selectMessages {db : Db} {m : Message} (hm : m ∈ db.messages.rows) (user_id : Int) :
    (db.selectMessages user_id).count m = if db.isMember m.chat_id user_id then 1 else 0 := by
  rw [selectMessages, count_join, List.count_eq_one_of_mem db.messages.nodup_rows hm, Nat.one_mul]
  have hfilter : ∀ x, x ∈ db.chat_members.rows.filter (fun cm =>
      decide (cm.chat_id = m.chat_id ∧ cm.user_id = user_id)) →
        x = ⟨m.chat_id, user_id⟩ ∧ x ∈ db.chat_members.rows := by
    intro x hx
    obtain ⟨hmem, hon⟩ := List.mem_filter.mp hx
    rw [decide_eq_true_eq] at hon
    exact ⟨by rw [← hon.1, ← hon.2], hmem⟩
  have hnodup := (db.chat_members.nodup_rows).filter fun cm =>
    decide (cm.chat_id = m.chat_id ∧ cm.user_id = user_id)
  split_ifs with hmember
  · have hone := List.count_eq_one_of_mem hnodup (List.mem_filter.mpr
      ⟨isMember_iff.mp hmember, decide_eq_true (⟨rfl, rfl⟩ : m.chat_id = m.chat_id ∧ _)⟩)
    rw [← hone, List.count_eq_length.mpr fun x hx => ((hfilter x hx).1).symm]
  · rw [List.length_eq_zero_iff, List.eq_nil_iff_forall_not_mem]
    intro x hx
    obtain ⟨rfl, hmem⟩ := hfilter x hx
    exact hmember (isMember_iff.mpr hmem)

/-- Only messages of the database are read. -/
theorem mem_selectMessages {db : Db} {m : Message} {user_id : Int} :
    m ∈ db.selectMessages user_id ↔
      m ∈ db.messages.rows ∧ db.isMember m.chat_id user_id = true := by
  simp only [selectMessages, List.mem_map]
  constructor
  · rintro ⟨⟨m', cm⟩, hjoin, rfl⟩
    obtain ⟨hm, hcm, hon⟩ := mem_join.mp hjoin
    rw [decide_eq_true_eq] at hon
    refine ⟨hm, isMember_iff.mpr ?_⟩
    rw [← hon.1, ← hon.2]
    exact hcm
  · rintro ⟨hm, hmember⟩
    exact ⟨(m, ⟨m.chat_id, user_id⟩), mem_join.mpr ⟨hm, isMember_iff.mp hmember,
      decide_eq_true ⟨rfl, rfl⟩⟩, rfl⟩

end Db

end SocialNetwork.ChatService

import SocialNetwork.ChatService.AtomicityTheorems
import SocialNetwork.UserService.ListingTheorems
import SocialNetwork.WallService.Posts

/-!
# Identifiers of 64 bits (`schema.sql` and the three handlers)

Ids are `BIGSERIAL`, and the handlers read them as `int`. In a request whose statements all succeed,
an id that does not fit is the only reason why a committed row is not answered with 201, or a listing
not with 200.
-/

namespace SocialNetwork

open Text (ByteString)
open ChatService (CppError Response isInt32 arrayBody)

/-! ## Users -/

namespace UserService

/-- The statements on the tables of users and profiles. -/
def statements (ilike : String → String → Bool) (c : SqlCall) (_ : Unit) (db : Db) :
    Option (Db × Except CppError c.Answer) := some (db.execute ilike c)

/-- The rows that a `GET` selects. -/
def Request.rows (ilike : String → String → Bool) (request : Request) (db : Db) : List Row :=
  db.rows.filter (Row.selected ilike request.login request.name)

/-- A registration is answered 201 with the id of the new row, a listing 200 with the ids of the
selected rows. -/
def IdsSurvive (ilike : String → String → Bool) (db : Db) (request : Request) (db' : Db)
    (r : Except CppError Response) : Prop :=
  match request.post? with
  | some g => ∃ row : User, db'.users.rows = db.users.rows ++ [row] ∧ r = .ok (created row.id g)
  | none => ∃ rows : List Row, rows.Perm (request.rows ilike db) ∧
      r = .ok ⟨.kOk, arrayBody (rows.map item)⟩

/-- The next id fits into `int`, or the selected ones do. -/
def RequestFits (ilike : String → String → Bool) (db : Db) (request : Request) : Prop :=
  match request.post? with
  | some _ => isInt32 db.users_id_seq
  | none => ∀ row ∈ request.rows ilike db, isInt32 row.id

theorem asRowInt_bind {α : Type} (n : Int) (f : Int → Cpp α) :
    asRowInt n >>= f = if isInt32 n then f n else .raise .narrowingOverflow := by
  unfold asRowInt
  split_ifs <;> rfl

/-- An accepted registration adds a row with the next id. -/
theorem insertUser_some {db db₁ : Db} {g : Registration} {id : Int}
    (h : db.insertUser g.login g.email g.password_hash = (db₁, some id)) :
    id = db.users_id_seq ∧ ∃ row : User, row.id = id ∧ db₁.users.rows = db.users.rows ++ [row] := by
  by_cases hacc : db.acceptsUser g
  · obtain ⟨db₂, row, heq, hadded⟩ := Db.insertUser_eq hacc
    rw [heq] at h
    cases h
    exact ⟨hadded.id, row, rfl, hadded.users⟩
  · obtain ⟨db₂, heq, -⟩ := Db.insertUser_refused hacc
    rw [heq] at h
    cases h

/-- A profile is added to a user that is there. -/
theorem insertProfile_users {db db₁ : Db} {user_id : Int} {first_name last_name : ByteString}
    {x : Option Unit} (h : db.insertProfile user_id first_name last_name = (db₁, x)) :
    db₁.users.rows = db.users.rows := by
  have hfst : db₁ = (db.insertProfile user_id first_name last_name).1 := by rw [h]
  rw [hfst]
  unfold Db.insertProfile
  split_ifs
  · split
    · split_ifs <;> rfl
    · rfl
  · rfl

section Runs

variable {ilike : String → String → Bool} {db db' : Db} {request : Request} {ωs : List Unit}
  {r : Except CppError Response}

/-- A statement that succeeds. -/
theorem statements_ok {c : SqlCall} {u : Unit} {a : c.Answer}
    (h : statements ilike c u db = some (db', .ok a)) : db.execute ilike c = (db', .ok a) :=
  Option.some.inj h

/-- A registration whose statements succeed. -/
theorem registerUser_succeeding {g : Registration}
    (h : (registerUser g).run (Prog.succeeding (statements ilike)) ωs db = some (db', r)) :
    (∃ row : User, db'.users.rows = db.users.rows ++ [row] ∧ r = .ok (created row.id g)) ↔
      isInt32 db.users_id_seq := by
  obtain ⟨u, ωs₁, db₁, (id : Int), -, hinsert, h⟩ := Prog.run_succeeding_bind.mp h
  have hinsert : db.execute ilike (.insertUser g.login g.email g.password_hash) = (db₁, .ok id) :=
    statements_ok hinsert
  simp only [Db.execute] at hinsert
  split at hinsert
  · next db₂ id' heq =>
    cases hinsert
    obtain ⟨hid, row, hrow, husers⟩ := insertUser_some heq
    rw [asRowInt_bind] at h
    split_ifs at h with hfits
    · obtain ⟨u', ωs₂, db₃, a, -, hprofile, h⟩ := Prog.run_succeeding_bind.mp h
      obtain ⟨-, heq'⟩ := Prog.run_ret.mp h
      cases heq'
      have hprofile := statements_ok hprofile
      have husers' : db'.users.rows = db₁.users.rows := by
        simp only [Db.execute] at hprofile
        split at hprofile
        · next heq' =>
          cases hprofile
          exact insertProfile_users heq'
        · cases hprofile
      refine iff_of_true ⟨row, husers'.trans husers, ?_⟩ (hid ▸ hfits)
      rw [hrow]
    · -- the id is read before the profile is inserted
      obtain ⟨-, heq'⟩ := Prog.run_raise.mp h
      cases heq'
      refine iff_of_false ?_ (hid ▸ hfits)
      rintro ⟨row', -, hok⟩
      cases hok
  · cases hinsert

/-- A listing whose statement succeeds. -/
theorem listUsers_succeeding
    (hnull : ∀ row ∈ request.rows ilike db, row.first_name.isSome = true ∧ row.last_name.isSome = true)
    (h : (listUsers request.login request.name).run (Prog.succeeding (statements ilike)) ωs db =
      some (db', r)) :
    (∃ rows : List Row, rows.Perm (request.rows ilike db) ∧
        r = .ok ⟨.kOk, arrayBody (rows.map item)⟩) ↔
      ∀ row ∈ request.rows ilike db, isInt32 row.id := by
  obtain ⟨u, ωs₁, db₁, (result : List Row), -, hselect, h⟩ := Prog.run_succeeding_bind.mp h
  have hselect : db.execute ilike (.selectUsers request.login request.name) = (db₁, .ok result) :=
    statements_ok hselect
  have hperm : List.Perm result (request.rows ilike db) := by
    simp only [Db.execute, Db.selectUsers] at hselect
    split at hselect
    · next rows heq =>
      cases hselect
      split_ifs at heq
      cases heq
      exact List.mergeSort_perm _ _
    · cases hselect
  -- the names are there, so only the id can fail to be read
  have hreadable : (∀ row ∈ result, readable row) ↔ ∀ row ∈ request.rows ilike db, isInt32 row.id := by
    constructor
    · intro hall row hrow
      exact (hall row (hperm.mem_iff.mpr hrow)).1
    · intro hall row hrow
      have hmem := hperm.mem_iff.mp hrow
      exact ⟨hall row hmem, hnull row hmem⟩
  rw [← hreadable]
  rcases items_eq result with ⟨hall, hitems⟩ | ⟨hnot, e, hitems⟩
  · rw [hitems] at h
    obtain ⟨-, heq⟩ := Prog.run_ret.mp h
    cases heq
    exact iff_of_true ⟨result, hperm, rfl⟩ hall
  · rw [hitems] at h
    obtain ⟨-, heq⟩ := Prog.run_raise.mp h
    cases heq
    refine iff_of_false ?_ hnot
    rintro ⟨rows, -, hok⟩
    cases hok

/-- The users handler. -/
theorem ids_survive_iff (hrequest : request.method = .kGet ∨ request.post?.isSome = true)
    (hnull : request.method = .kGet → ∀ row ∈ request.rows ilike db,
      row.first_name.isSome = true ∧ row.last_name.isSome = true)
    (h : (HandleRequestThrow request).run (Prog.succeeding (statements ilike)) ωs db =
      some (db', r)) :
    IdsSurvive ilike db request db' r ↔ RequestFits ilike db request := by
  unfold IdsSurvive RequestFits
  cases hpost : request.post? with
  | some g =>
    rw [handle_post hpost] at h
    exact registerUser_succeeding h
  | none =>
    have hget : request.method = .kGet := by
      rcases hrequest with hget | hsome
      · exact hget
      · rw [hpost] at hsome
        cases hsome
    rw [handle_get hget] at h
    exact listUsers_succeeding (hnull hget) h

end Runs

end UserService

/-! ## Posts -/

namespace WallService

/-- The statements on the table of posts. -/
def statements (c : SqlCall) (ω : Choice) (db : Db) : Option (Db × Except CppError c.Answer) :=
  db.execute ω c

/-- The query of a `GET` with the accepted token: of one user's posts, or of all. -/
def Request.get? (request : Request) : Option (Option Int) :=
  if request.authorization = "Bearer 123" ∧ request.method = .kGet then
    if request.user_id = "" then some none
    else (ChatService.stoi request.user_id).toOption.map some
  else none

/-- The posts that a query selects. -/
def Db.selected (db : Db) : Option Int → List Post
  | some user_id => db.selectPostsOf user_id
  | none => db.posts.rows

/-- A post is answered 201 with the id of the new row, a listing 200 with the ids of the selected
rows. -/
def IdsSurvive (db : Db) (request : Request) (db' : Db) (r : Except CppError Response) : Prop :=
  match request.post?, request.get? with
  | some p, _ => ∃ row : Post, db'.posts.rows = db.posts.rows ++ [row] ∧ r = .ok (created row.id p)
  | none, some q => ∃ rows : List Post, rows.Perm (db.selected q) ∧
      r = .ok ⟨.kOk, arrayBody (rows.map item)⟩
  | none, none => True

/-- The next id fits into `int`, or the selected ones do. -/
def RequestFits (db : Db) (request : Request) : Prop :=
  match request.post?, request.get? with
  | some _, _ => isInt32 db.posts_id_seq
  | none, some q => ∀ p ∈ db.selected q, fits p
  | none, none => True

section Runs

variable {db db' : Db} {request : Request} {ωs : List Choice} {r : Except CppError Response}

/-- A post whose statement succeeds. -/
theorem createPost_succeeding {p : NewPost}
    (h : (createPost p).run (Prog.succeeding statements) ωs db = some (db', r)) :
    (∃ row : Post, db'.posts.rows = db.posts.rows ++ [row] ∧ r = .ok (created row.id p)) ↔
      isInt32 db.posts_id_seq := by
  obtain ⟨ω, ωs₁, db₁, (id : Int), -, hinsert, h⟩ := Prog.run_succeeding_bind.mp h
  have hinsert : db.execute ω (.insertPost p.user_id p.content) = some (db₁, .ok id) := hinsert
  simp only [Db.execute] at hinsert
  split at hinsert
  · next db₂ id' heq =>
    cases hinsert
    obtain ⟨hid, hposts⟩ := Db.insertPost_some heq
    rw [asRowInt_bind] at h
    split_ifs at h with hfits
    · obtain ⟨-, heq'⟩ := Prog.run_ret.mp h
      cases heq'
      exact iff_of_true ⟨_, hposts, rfl⟩ (hid ▸ hfits)
    · -- the row is committed, and its id cannot be read
      obtain ⟨-, heq'⟩ := Prog.run_raise.mp h
      cases heq'
      refine iff_of_false ?_ (hid ▸ hfits)
      rintro ⟨row, -, hok⟩
      cases hok
  · cases hinsert

/-- Encoding a result takes no statement. -/
theorem items_succeeding {posts : List Post} {result : List Post} (hperm : result.Perm posts)
    (h : (items result >>= fun arr => pure ⟨.kOk, arrayBody arr⟩).run (Prog.succeeding statements) ωs
      db = some (db', r)) :
    (∃ rows : List Post, rows.Perm posts ∧ r = .ok ⟨.kOk, arrayBody (rows.map item)⟩) ↔
      ∀ p ∈ posts, fits p := by
  have hall : (∀ p ∈ result, fits p) ↔ ∀ p ∈ posts, fits p :=
    forall_congr' fun p => by rw [hperm.mem_iff]
  rw [← hall]
  rw [items_eq] at h
  split_ifs at h with hfits
  · obtain ⟨-, heq⟩ := Prog.run_ret.mp h
    cases heq
    exact iff_of_true ⟨result, hperm, rfl⟩ hfits
  · obtain ⟨-, heq⟩ := Prog.run_raise.mp h
    cases heq
    refine iff_of_false ?_ hfits
    rintro ⟨rows, -, hok⟩
    cases hok

/-- What the listing of one user answers. -/
theorem listPostsOf_succeeding {user_id : Int}
    (h : (listPostsOf user_id).run (Prog.succeeding statements) ωs db = some (db', r)) :
    (∃ rows : List Post, rows.Perm (db.selectPostsOf user_id) ∧
        r = .ok ⟨.kOk, arrayBody (rows.map item)⟩) ↔ ∀ p ∈ db.selectPostsOf user_id, fits p := by
  obtain ⟨ω, ωs₁, db₁, (result : List Post), -, hselect, h⟩ := Prog.run_succeeding_bind.mp h
  have hselect : db.execute ω (.selectPostsOf user_id) = some (db₁, .ok result) := hselect
  simp only [Db.execute] at hselect
  split_ifs at hselect with horders
  cases hselect
  exact items_succeeding horders.1 h

theorem listPosts_succeeding
    (h : listPosts.run (Prog.succeeding statements) ωs db = some (db', r)) :
    (∃ rows : List Post, rows.Perm db.posts.rows ∧ r = .ok ⟨.kOk, arrayBody (rows.map item)⟩) ↔
      ∀ p ∈ db.posts.rows, fits p := by
  obtain ⟨ω, ωs₁, db₁, (result : List Post), -, hselect, h⟩ := Prog.run_succeeding_bind.mp h
  have hselect : db.execute ω .selectPosts = some (db₁, .ok result) := hselect
  simp only [Db.execute] at hselect
  split_ifs at hselect with horders
  cases hselect
  exact items_succeeding horders.1 h

/-- The posts handler. -/
theorem ids_survive_iff
    (h : (HandleRequestThrow request).run (Prog.succeeding statements) ωs db = some (db', r)) :
    IdsSurvive db request db' r ↔ RequestFits db request := by
  unfold IdsSurvive RequestFits
  cases hpost : request.post? with
  | some p =>
    rw [handle_post hpost] at h
    exact createPost_succeeding h
  | none =>
    cases hget : request.get? with
    | none => exact Iff.rfl
    | some q =>
      unfold Request.get? at hget
      split_ifs at hget with hauth hempty
      · cases hget
        rw [handle_get hauth.1 hauth.2, if_neg (not_not.mpr hempty)] at h
        exact listPosts_succeeding h
      · rw [handle_get hauth.1 hauth.2, if_pos hempty] at h
        cases hstoi : ChatService.stoi request.user_id with
        | error e =>
          rw [hstoi] at hget
          cases hget
        | ok user_id =>
          rw [hstoi] at hget h
          cases hget
          exact listPostsOf_succeeding h

end Runs

end WallService

/-! ## Messages -/

namespace ChatService

/-- The statements on the chat tables. -/
def statements (c : SqlCall) (ω : Choice) (db : Db) : Option (Db × Except CppError c.Answer) :=
  db.execute ω c

/-- The chat that a message is put into: the one that the lookup picks, or a new one. -/
def Db.chatOf (db : Db) (ω : Choice) (p : Post) : Option Int :=
  if db.selectChat p.from_ p.to_ = [] then some db.chats_id_seq
  else (db.selectChat p.from_ p.to_)[ω.pick]?

/-- A message is answered 201 with the ids of the new row, a listing 200 with the ids of the selected
rows. -/
def IdsSurvive (db : Db) (request : Request) (db' : Db) (r : Except CppError Response) : Prop :=
  match request.post?, request.get? with
  | some p, _ => ∃ m : Message, db'.messages.rows = db.messages.rows ++ [m] ∧
      r = .ok (created m.id m.chat_id p.from_ p.text)
  | none, some user_id => ∃ rows : List Message, rows.Perm (db.selectMessages user_id) ∧
      r = .ok ⟨.kOk, arrayBody (rows.map item)⟩
  | none, none => True

/-- The id of the chat and the next id fit into `int`, or the selected ones do. -/
def RequestFits (db : Db) (request : Request) (ω : Choice) : Prop :=
  match request.post?, request.get? with
  | some p, _ => (∀ chat_id, db.chatOf ω p = some chat_id → isInt32 chat_id) ∧
      isInt32 db.messages_id_seq
  | none, some user_id => ∀ m ∈ db.selectMessages user_id, fits m
  | none, none => True

/-- The new chat and the new message have the next ids. -/
theorem insertChat_id {db db₁ : Db} {title : String} {id : Int}
    (h : db.insertChat title = (db₁, some id)) :
    id = db.chats_id_seq ∧ db₁.messages_id_seq = db.messages_id_seq := by
  simp only [Db.insertChat] at h
  split_ifs at h
  · cases h
    exact ⟨rfl, rfl⟩
  · cases h

/-- Members have no ids of their own. -/
theorem insertMembers_seq {db db₁ : Db} {chat_id from_ to_ : Int} {x : Option Unit}
    (h : db.insertMembers chat_id from_ to_ = (db₁, x)) :
    db₁.messages_id_seq = db.messages_id_seq := by
  simp only [Db.insertMembers] at h
  split_ifs at h
  · cases h
    rfl
  · cases h
    rfl

/-- A message has the next id. -/
theorem insertMessage_id {db db₁ : Db} {chat_id sender_id now id : Int} {content : ByteString}
    (h : db.insertMessage chat_id sender_id content now = (db₁, some id)) :
    id = db.messages_id_seq := by
  simp only [Db.insertMessage] at h
  split_ifs at h
  · cases h
    rfl
  · cases h

section Runs

variable {db db' : Db} {request : Request} {ω : Choice} {ωs : List Choice}
  {r : Except CppError Response}

/-- A message put into a chat. -/
theorem storeMessage_succeeding {p : Post} {chat_id : Int}
    (h : (storeMessage p chat_id).run (Prog.succeeding statements) ωs db = some (db', r)) :
    (∃ m : Message, db'.messages.rows = db.messages.rows ++ [m] ∧
        r = .ok (created m.id m.chat_id p.from_ p.text)) ↔ isInt32 db.messages_id_seq := by
  obtain ⟨ω, ωs₁, db₁, (id : Int), -, hinsert, h⟩ := Prog.run_succeeding_bind.mp h
  have hinsert : db.execute ω (.insertMessage chat_id p.from_ p.text) = some (db₁, .ok id) := hinsert
  simp only [Db.execute] at hinsert
  split at hinsert
  · next db₂ id' heq =>
    cases hinsert
    have hid := insertMessage_id heq
    obtain ⟨-, -, hmessages⟩ := Db.insertMessage_some heq
    rw [asRowInt_bind] at h
    split_ifs at h with hfits
    · obtain ⟨-, heq'⟩ := Prog.run_ret.mp h
      cases heq'
      exact iff_of_true ⟨_, hmessages, rfl⟩ (hid ▸ hfits)
    · -- the message is committed, and its id cannot be read
      obtain ⟨-, heq'⟩ := Prog.run_raise.mp h
      cases heq'
      refine iff_of_false ?_ (hid ▸ hfits)
      rintro ⟨m, -, hok⟩
      cases hok
  · cases hinsert

/-- A message whose statements succeed. -/
theorem postMessage_succeeding {p : Post}
    (h : (postMessage p).run (Prog.succeeding statements) (ω :: ωs) db = some (db', r)) :
    (∃ m : Message, db'.messages.rows = db.messages.rows ++ [m] ∧
        r = .ok (created m.id m.chat_id p.from_ p.text)) ↔
      (∀ chat_id, db.chatOf ω p = some chat_id → isInt32 chat_id) ∧ isInt32 db.messages_id_seq := by
  have hraise : ∀ {ωs' : List Choice} {db₁ : Db},
      (Prog.raise .narrowingOverflow : Cpp Response).run (Prog.succeeding statements) ωs' db₁ =
        some (db', r) → ¬ ∃ m : Message, db'.messages.rows = db.messages.rows ++ [m] ∧
          r = .ok (created m.id m.chat_id p.from_ p.text) := by
    intro ωs' db₁ h
    obtain ⟨-, heq⟩ := Prog.run_raise.mp h
    cases heq
    rintro ⟨m, -, hok⟩
    cases hok
  rw [postMessage_eq] at h
  obtain ⟨ω', ωs₁, db₁, (chat_res : Option Int), hωs, hselect, h⟩ := Prog.run_succeeding_bind.mp h
  obtain ⟨rfl, rfl⟩ := List.cons.inj hωs
  have hselect : db.execute ω (.selectChat p.from_ p.to_) = some (db₁, .ok chat_res) := hselect
  simp only [Db.execute] at hselect
  unfold Db.chatOf
  split_ifs at hselect with hnone
  · cases hselect
    rw [if_pos hnone]
    obtain ⟨ω₂, ωs₂, db₂, (chat_id : Int), -, hinsert, h⟩ := Prog.run_succeeding_bind.mp h
    have hinsert : db.execute ω₂ (.insertChat "private-chat") = some (db₂, .ok chat_id) := hinsert
    simp only [Db.execute] at hinsert
    split at hinsert
    · next db₃ id heq =>
      cases hinsert
      obtain ⟨hid, hseq⟩ := insertChat_id heq
      obtain ⟨-, -, -, hmessages⟩ := Db.insertChat_some heq
      rw [asRowInt_bind] at h
      split_ifs at h with hfits
      · obtain ⟨ω₄, ωs₄, db₄, (u : Unit), -, hmembers, h⟩ := Prog.run_succeeding_bind.mp h
        have hmembers : db₂.execute ω₄ (.insertMembers chat_id p.from_ p.to_) = some (db₄, .ok u) :=
          hmembers
        simp only [Db.execute] at hmembers
        split at hmembers
        · next db₅ v heq' =>
          cases hmembers
          obtain ⟨-, -, -, hmessages'⟩ := Db.insertMembers_some heq'
          have hstore := storeMessage_succeeding h
          rw [hmessages', hmessages, insertMembers_seq heq', hseq] at hstore
          rw [hstore]
          refine (and_iff_right fun c hc => ?_).symm
          rw [← Option.some.inj hc, ← hid]
          exact hfits
        · cases hmembers
      · -- the chat is committed, and its id cannot be read
        refine iff_of_false (hraise h) fun hall => hfits ?_
        rw [hid]
        exact hall.1 _ rfl
    · cases hinsert
  · obtain ⟨chat_id, hpick, heq⟩ := Option.map_eq_some_iff.mp hselect
    cases heq
    rw [if_neg hnone, hpick]
    have h : (asRowInt chat_id >>= storeMessage p).run (Prog.succeeding statements) ωs db =
        some (db', r) := h
    rw [asRowInt_bind] at h
    split_ifs at h with hfits
    · rw [storeMessage_succeeding h]
      refine (and_iff_right fun c hc => ?_).symm
      rw [← Option.some.inj hc]
      exact hfits
    · exact iff_of_false (hraise h) fun hall => hfits (hall.1 _ rfl)

/-- A listing whose statement succeeds. -/
theorem getMessages_succeeding {user_id : Int}
    (h : (getMessages user_id).run (Prog.succeeding statements) ωs db = some (db', r)) :
    (∃ rows : List Message, rows.Perm (db.selectMessages user_id) ∧
        r = .ok ⟨.kOk, arrayBody (rows.map item)⟩) ↔ ∀ m ∈ db.selectMessages user_id, fits m := by
  obtain ⟨ω, ωs₁, db₁, (result : List Message), -, hselect, h⟩ := Prog.run_succeeding_bind.mp h
  have hselect : db.execute ω (.selectMessages user_id) = some (db₁, .ok result) := hselect
  simp only [Db.execute] at hselect
  split_ifs at hselect with horders
  cases hselect
  have hall : (∀ m ∈ ω.rows, fits m) ↔ ∀ m ∈ db.selectMessages user_id, fits m :=
    forall_congr' fun m => by rw [horders.1.mem_iff]
  rw [← hall]
  rw [items_eq] at h
  split_ifs at h with hfits
  · obtain ⟨-, heq⟩ := Prog.run_ret.mp h
    cases heq
    exact iff_of_true ⟨ω.rows, horders.1, rfl⟩ hfits
  · obtain ⟨-, heq⟩ := Prog.run_raise.mp h
    cases heq
    refine iff_of_false ?_ hfits
    rintro ⟨rows, -, hok⟩
    cases hok

/-- The messages handler. -/
theorem ids_survive_iff
    (h : (HandleRequestThrow request).run (Prog.succeeding statements) (ω :: ωs) db =
      some (db', r)) :
    IdsSurvive db request db' r ↔ RequestFits db request ω := by
  unfold IdsSurvive RequestFits
  cases hpost : request.post? with
  | some p =>
    rw [handle_post hpost] at h
    exact postMessage_succeeding h
  | none =>
    cases hget : request.get? with
    | none => exact Iff.rfl
    | some user_id =>
      rw [handle_get hget] at h
      exact getMessages_succeeding h

end Runs

end ChatService

/-! ## The three handlers -/

namespace Userver

/-- **Identifiers.** In a request whose statements all succeed, on any database that satisfies the
schema, the ids survive just if they fit into `int`. -/
theorem identifiers_survive_iff (ilike : String → String → Bool) :
    (∀ (db : UserService.Db) (request : UserService.Request) (ωs : List Unit)
        (db' : UserService.Db) (r : Except CppError Response),
      (request.method = .kGet ∨ request.post?.isSome = true) →
      (request.method = .kGet → ∀ row ∈ request.rows ilike db,
        row.first_name.isSome = true ∧ row.last_name.isSome = true) →
      (UserService.HandleRequestThrow request).run
        (Prog.succeeding (UserService.statements ilike)) ωs db = some (db', r) →
      (UserService.IdsSurvive ilike db request db' r ↔ UserService.RequestFits ilike db request)) ∧
    (∀ (db : WallService.Db) (request : WallService.Request) (ωs : List WallService.Choice)
        (db' : WallService.Db) (r : Except CppError Response),
      (WallService.HandleRequestThrow request).run
        (Prog.succeeding WallService.statements) ωs db = some (db', r) →
      (WallService.IdsSurvive db request db' r ↔ WallService.RequestFits db request)) ∧
    (∀ (db : ChatService.Db) (request : ChatService.Request) (ω : ChatService.Choice)
        (ωs : List ChatService.Choice) (db' : ChatService.Db) (r : Except CppError Response),
      (ChatService.HandleRequestThrow request).run
        (Prog.succeeding ChatService.statements) (ω :: ωs) db = some (db', r) →
      (ChatService.IdsSurvive db request db' r ↔ ChatService.RequestFits db request ω)) :=
  ⟨fun _ _ _ _ _ hrequest hnull h => UserService.ids_survive_iff hrequest hnull h,
    fun _ _ _ _ _ h => WallService.ids_survive_iff h,
    fun _ _ _ _ _ _ h => ChatService.ids_survive_iff h⟩

/-- `POST /posts {"user_id": 1, "content": "hi"}`. -/
def hiPost : WallService.Request :=
  ⟨.kPost, "Bearer 123", some (.obj [("user_id", .int 1), ("content", .str "hi")]), ""⟩

/-- `GET /posts`. -/
def allPosts : WallService.Request := ⟨.kGet, "Bearer 123", none, ""⟩

/-- `POST /messages {"from": 1, "to": 2, "text": "hi"}`. -/
def hiMessage : ChatService.Request :=
  ⟨.kPost, "Bearer 123", some (.obj [("from", .int 1), ("to", .int 2), ("text", .str "hi")]), ""⟩

/-- The first user, the first post and the first message. -/
theorem identifiers_survive_iff_first :
    (∃ db' r, (UserService.HandleRequestThrow
          (UserService.postRequest "bob" "bob@example.com" "secret" "Bob" "B")).run
        (Prog.succeeding (UserService.statements UserService.contains)) [(), ()]
          UserService.Db.empty = some (db', r) ∧
      UserService.IdsSurvive UserService.contains UserService.Db.empty
        (UserService.postRequest "bob" "bob@example.com" "secret" "Bob" "B") db' r) ∧
    (∃ db' r, (WallService.HandleRequestThrow hiPost).run
        (Prog.succeeding WallService.statements) [⟨0, []⟩] (WallService.Db.withUsers [1]) =
          some (db', r) ∧
      WallService.IdsSurvive (WallService.Db.withUsers [1]) hiPost db' r) ∧
    ∃ db' r, (ChatService.HandleRequestThrow hiMessage).run
        (Prog.succeeding ChatService.statements) [⟨0, 0, []⟩, ⟨0, 0, []⟩, ⟨0, 0, []⟩, ⟨0, 0, []⟩]
          (ChatService.Db.withUsers [1, 2]) = some (db', r) ∧
      ChatService.IdsSurvive (ChatService.Db.withUsers [1, 2]) hiMessage db' r := by
  refine ⟨?_, ?_, ?_⟩
  · obtain ⟨⟨db', r⟩, hrun⟩ : ∃ x, (UserService.HandleRequestThrow
        (UserService.postRequest "bob" "bob@example.com" "secret" "Bob" "B")).run
          (Prog.succeeding (UserService.statements UserService.contains)) [(), ()]
            UserService.Db.empty = some x := Option.isSome_iff_exists.mp (by decide +kernel)
    have hfits : isInt32 1 := by decide
    exact ⟨db', r, hrun, ((identifiers_survive_iff UserService.contains).1 _ _ _ db' r (.inr rfl)
      (fun hget => absurd hget (by decide)) hrun).mpr hfits⟩
  · obtain ⟨⟨db', r⟩, hrun⟩ : ∃ x, (WallService.HandleRequestThrow hiPost).run
        (Prog.succeeding WallService.statements) [⟨0, []⟩] (WallService.Db.withUsers [1]) = some x :=
      Option.isSome_iff_exists.mp (by decide +kernel)
    have hfits : isInt32 1 := by decide
    exact ⟨db', r, hrun,
      ((identifiers_survive_iff UserService.contains).2.1 _ _ _ db' r hrun).mpr hfits⟩
  · obtain ⟨⟨db', r⟩, hrun⟩ : ∃ x, (ChatService.HandleRequestThrow hiMessage).run
        (Prog.succeeding ChatService.statements) [⟨0, 0, []⟩, ⟨0, 0, []⟩, ⟨0, 0, []⟩, ⟨0, 0, []⟩]
          (ChatService.Db.withUsers [1, 2]) = some x :=
      Option.isSome_iff_exists.mp (by decide +kernel)
    refine ⟨db', r, hrun,
      ((identifiers_survive_iff UserService.contains).2.2 _ _ _ _ db' r hrun).mpr ⟨?_, by decide⟩⟩
    -- the two users have no chat yet
    intro chat_id hchat
    cases hchat
    decide

/-- User 1, and a sequence that has reached `2 ^ 31`. -/
def lateDb : WallService.Db := { WallService.Db.withUsers [1] with posts_id_seq := 2147483648 }

/-- The post is committed with an id that does not fit: the request ends with an exception, and from
then on the listing of all posts does too. -/
theorem large_id_breaks_the_wall :
    ∃ db' : WallService.Db,
      (WallService.HandleRequestThrow hiPost).run (Prog.succeeding WallService.statements) [⟨0, []⟩]
          lateDb = some (db', .error .narrowingOverflow) ∧
        db'.posts.rows = [⟨2147483648, 1, "hi", 0⟩] ∧
        ¬ WallService.IdsSurvive lateDb hiPost db' (.error .narrowingOverflow) ∧
        (WallService.HandleRequestThrow allPosts).run (Prog.succeeding WallService.statements)
          [⟨0, [⟨2147483648, 1, "hi", 0⟩]⟩] db' = some (db', .error .narrowingOverflow) := by
  refine ⟨lateDb.addPost ⟨2147483648, 1, "hi", 0⟩ (by decide), by rfl, by rfl, ?_, by rfl⟩
  rintro ⟨row, -, hok⟩
  cases hok

end Userver

end SocialNetwork

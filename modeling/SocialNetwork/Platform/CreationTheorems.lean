import SocialNetwork.Platform.Service
import SocialNetwork.UserService.RegistrationTheorems

/-!
# What the services create

Every answer 201 stands for rows that are there and stay; no two of them stand for the same row, and
no login and no email is registered twice. Every row of the database was there at the start or was
asked for by an authorised request.
-/

namespace SocialNetwork.Platform

open ChatService (CppError Response HttpStatus)
open Text (ByteString)

variable {ilike : String → String → Bool} {db : Db} {as : List Action} {s : State} {n : Nat}

/-! ## What is answered with 201 -/

/-- The answer of a request that has created what it was asked for, and that it is stored. -/
def Created (db : Db) : Request → Response → Prop
  | .users r, response => ∃ p id, r.post? = some p ∧ response = UserService.created id p ∧
      UserStored db p id ∧ ProfileStored db p id
  | .posts r, response => ∃ p id, r.post? = some p ∧ response = WallService.created id p ∧
      PostStored db p id
  | .messages r, response => ∃ p chat_id id, r.post? = some p ∧
      response = ChatService.created id chat_id p.from_ p.text ∧ MessageStored db p chat_id id
  | .auth _, _ => False

/-- What has been reached by a request that is answered with 201. -/
theorem created_of_ended {l : Request} {g : Phase} {response : Response}
    (hended : Ended l (.ok response) g) (hholds : Holds l g db)
    (hst : response.status = .kCreated) :
    Created db l response := by
  cases l with
  | auth method => exact absurd hst (hended response rfl)
  | users r =>
    cases g with
    | users g =>
      obtain ⟨p, id, hp, rfl, hresponse⟩ := hended response rfl hst
      exact ⟨p, id, hp, hresponse, hholds p hp⟩
    | _ => exact hended.elim
  | posts r =>
    cases g with
    | posts g =>
      obtain ⟨p, id, hp, rfl, hresponse⟩ := hended response rfl hst
      exact ⟨p, id, hp, hresponse, hholds p hp⟩
    | _ => exact hended.elim
  | messages r =>
    cases g with
    | messages g =>
      obtain ⟨p, chat_id, id, hp, rfl, hresponse⟩ := hended response rfl hst
      exact ⟨p, chat_id, id, hp, hresponse, hholds p hp⟩
    | _ => exact hended.elim

/-- What is answered with 201 at a moment of a run is stored at this moment. -/
theorem created_at {m : State} (hm : Runs.At (service ilike).step (Service.init db) as n m)
    {l : Request} {response : Response} (h : (l, .ok response) ∈ m.shared.answered)
    (hst : response.status = .kCreated) : Created m.shared.store l response := by
  obtain ⟨g, hended, hholds⟩ := ((assertions ilike).asserted_at hm).answered l _ h
  exact created_of_ended hended hholds hst

/-! ## One row, one answer -/

/-- The key of the row that a statement has added for a request to answer with. -/
def added? : (c : Call) → Except CppError c.Answer → Option Key
  | .users (.insertUser _ _ _), .ok (id : Int) => some (.users id)
  | .posts (.insertPost _ _), .ok (id : Int) => some (.posts id)
  | .messages (.insertMessage _ _ _), .ok (id : Int) => some (.messages id)
  | _, _ => none

/-- The id in an answer 201. -/
def createdId? : Except CppError Response → Option Int
  | .ok ⟨.kCreated, .obj (("id", .int id) :: _)⟩ => some id
  | _ => none

/-- The key of the row that an answer 201 names. -/
def named? (l : Request) (r : Except CppError Response) : Option Key :=
  match l with
  | .auth _ => none
  | .users _ => (createdId? r).map .users
  | .posts _ => (createdId? r).map .posts
  | .messages _ => (createdId? r).map .messages

/-- A response with an id is a 201. -/
theorem created_of_createdId {r : Except CppError Response} {id : Int} (h : createdId? r = some id) :
    ∃ response, r = .ok response ∧ response.status = .kCreated := by
  unfold createdId? at h
  split at h
  · exact ⟨_, rfl, rfl⟩
  · cases h

/-- In this phase a request has added the row that it will name. -/
def Recorded : Phase → Option Key → Prop
  | .users (.added id), k => k = some (.users id)
  | .users (.registered id), k => k = some (.users id)
  | .posts (.stored id), k => k = some (.posts id)
  | .messages (.stored _ id), k => k = some (.messages id)
  | _, _ => True

/-- A statement adds at most one row of each kind. -/
theorem recorded_step {l : Request} {g : Phase} {k : Option Key} {c : Call} (hok : g.allows l c)
    (h : Recorded g k) (x : Except CppError c.Answer) :
    Recorded (g.after c x) ((added? c x).or k) := by
  rcases Phase.allows_cases hok with ⟨r, g, c, rfl, rfl, rfl, hok⟩ |
    ⟨r, g, c, rfl, rfl, rfl, hok⟩ | ⟨r, g, c, rfl, rfl, rfl, hok⟩
  · cases c with
    | insertUser username email password_hash => cases x <;> trivial
    | insertProfile user_id first_name last_name =>
      obtain ⟨rfl, -⟩ := hok
      cases x with
      | error e => trivial
      | ok _ => exact h
    | selectUsers login name => cases x <;> trivial
  · cases c <;> cases x <;> trivial
  · cases c with
    | selectChat from_ to_ => rcases x with e | _ | chat_id <;> trivial
    | _ => cases x <;> trivial

/-- An answer names the row that its request has added. -/
theorem recorded_of_named {l : Request} {r : Except CppError Response} {g : Phase} {k : Option Key}
    (hended : Ended l r g) (h : Recorded g k) (key : Key) (hkey : named? l r = some key) :
    k = some key := by
  cases l with
  | auth method => cases hkey
  | users q =>
    obtain ⟨id, hid, rfl⟩ := Option.map_eq_some_iff.mp hkey
    -- the answer carries the id that the last insert has returned
    obtain ⟨response, rfl, hst⟩ := created_of_createdId hid
    cases g with
    | users g =>
      obtain ⟨p, user_id, -, rfl, rfl⟩ := hended response rfl hst
      obtain rfl : user_id = id := Option.some.inj hid
      exact h
    | _ => exact hended.elim
  | posts q =>
    obtain ⟨id, hid, rfl⟩ := Option.map_eq_some_iff.mp hkey
    obtain ⟨response, rfl, hst⟩ := created_of_createdId hid
    cases g with
    | posts g =>
      obtain ⟨p, post_id, -, rfl, rfl⟩ := hended response rfl hst
      obtain rfl : post_id = id := Option.some.inj hid
      exact h
    | _ => exact hended.elim
  | messages q =>
    obtain ⟨id, hid, rfl⟩ := Option.map_eq_some_iff.mp hkey
    obtain ⟨response, rfl, hst⟩ := created_of_createdId hid
    cases g with
    | messages g =>
      obtain ⟨p, chat_id, message_id, -, rfl, rfl⟩ := hended response rfl hst
      obtain rfl : message_id = id := Option.some.inj hid
      exact h
    | _ => exact hended.elim

/-- A handler names the row that it has added. -/
theorem handle_records (l : Request) :
    (HandleRequestThrow l).Obeys (Service.recorder (fun _ c x => added? c x) l)
      (fun r k => ∀ key, named? l r = some key → k = some key) none := by
  refine Prog.Obeys.simulate Recorded ?_ ?_ (handle_obeys l) ?_
  · exact fun g k c hok h => ⟨trivial, recorded_step hok h⟩
  · exact fun r g k hended h => recorded_of_named hended h
  · cases l <;> trivial

/-- A row with this key is there. -/
def HasKey (db : Db) (k : Key) : Prop := k ∈ db.rows.map Row.key

/-- Rows are never deleted. -/
theorem hasKey_keep {ω : Choice} {c : Call} {db db' : Db} {x : Except CppError c.Answer} {k : Key}
    (h : db.execute ilike ω c = some (db', x)) (hk : HasKey db k) : HasKey db' k := by
  obtain ⟨row, hrow, rfl⟩ := List.mem_map.mp hk
  exact List.mem_map_of_mem (Db.execute_keeps h hrow)

/-- The row that is added is new. -/
theorem hasKey_new {ω : Choice} {c : Call} {db db' : Db} {x : Except CppError c.Answer} {k : Key}
    (h : db.execute ilike ω c = some (db', x)) (hk : added? c x = some k) :
    ¬ HasKey db k ∧ HasKey db' k := by
  obtain ⟨new, hadded, hperm⟩ := Db.execute_added h
  have hrow : ∃ row ∈ new, row.key = k := by
    unfold added? at hk
    split at hk
    · cases hk
      obtain ⟨u, rfl, -, rfl⟩ := hadded
      exact ⟨_, List.mem_singleton_self _, rfl⟩
    · cases hk
      obtain ⟨now, rfl⟩ := hadded
      exact ⟨_, List.mem_singleton_self _, rfl⟩
    · cases hk
      obtain ⟨now, rfl⟩ := hadded
      exact ⟨_, List.mem_singleton_self _, rfl⟩
    · cases hk
  obtain ⟨row, hrow, rfl⟩ := hrow
  exact ⟨Db.key_free hperm hrow,
    List.mem_map_of_mem (hperm.mem_iff.mpr (List.mem_append_right _ hrow))⟩

/-- An id is answered once, and never one that was there before. -/
theorem named_le_one (hrun : Runs.exec (service ilike).step (Service.init db) as = some s)
    (k : Key) : Service.shown named? k s.shared.answered ≤ 1 ∧
      (HasKey db k → Service.shown named? k s.shared.answered = 0) := by
  refine Service.shown_le_one HasKey named? handle_records ?_ ?_ ?_ hrun k
  · intro l c e
    cases c with
    | users c => cases c <;> rfl
    | posts c => cases c <;> rfl
    | messages c => cases c <;> rfl
  · exact fun ω c db db' x k h hk => hasKey_keep h hk
  · exact fun l ω c db db' x k h hk => hasKey_new h hk

/-- **Creations.** Whatever an answer 201 of a run stands for is stored, from the moment of the
answer on; no two of the answers name one row, and none names a row that was there at the start. -/
theorem creations_stand (hrun : Runs.exec (service ilike).step (Service.init db) as = some s) :
    (∀ l response, (l, .ok response) ∈ s.shared.answered → response.status = .kCreated →
      Created s.shared.store l response) ∧
    ∀ k, Service.shown named? k s.shared.answered ≤ 1 ∧
      (HasKey db k → Service.shown named? k s.shared.answered = 0) :=
  ⟨fun _ _ h hst => created_at (Runs.at_length hrun) h hst, named_le_one hrun⟩

/-! ### A first day -/

/-- A registration of this user. -/
def registration (login email first_name : ByteString) : Request :=
  .users ⟨.kPost, some (.obj [("login", .str login), ("email", .str email),
    ("password", .str "secret"), ("first_name", .str first_name), ("last_name", .str "A")]), "", ""⟩

def newPost : Request :=
  .posts ⟨.kPost, "Bearer 123", some (.obj [("user_id", .int 1), ("content", .str "hello")]), ""⟩

def newMessage : Request :=
  .messages ⟨.kPost, "Bearer 123",
    some (.obj [("from", .int 1), ("to", .int 2), ("text", .str "hi")]), ""⟩

def readUsers : UserService.Request := ⟨.kGet, none, "bob", ""⟩

def readPosts : WallService.Request := ⟨.kGet, "Bearer 123", none, ""⟩

def readMessages : ChatService.Request := ⟨.kGet, "Bearer 123", none, "2"⟩

/-- A statement that leaves nothing open. -/
def noChoice : Service.Outcome Choice := .ok ⟨⟨0, []⟩, ⟨0, 0, []⟩⟩

/-- Alice and Bob are registered; she posts and writes to him at the same time; then the users, the
wall and his messages are read. -/
def firstDay : List Action :=
  [.request (registration "alice" "alice@mail.com" "Alice"), .call 0 noChoice, .call 0 noChoice,
    .finish 0, .request (registration "bob" "bob@mail.com" "Bob"), .call 0 noChoice,
    .call 0 noChoice, .finish 0, .request newPost, .request newMessage, .call 1 noChoice,
    .call 0 noChoice, .call 1 noChoice, .finish 0, .call 0 noChoice, .call 0 noChoice, .finish 0,
    .request (.users readUsers), .call 0 noChoice, .finish 0, .request (.posts readPosts),
    .call 0 (.ok ⟨⟨0, [⟨1, 1, "hello", 0⟩]⟩, ⟨0, 0, []⟩⟩), .finish 0,
    .request (.messages readMessages),
    .call 0 (.ok ⟨⟨0, []⟩, ⟨0, 0, [⟨1, 1, 1, "hi", 0⟩]⟩⟩), .finish 0]

def firstDayAnswers : List (Request × Except CppError Response) :=
  [(registration "alice" "alice@mail.com" "Alice",
      .ok (UserService.created 1 ⟨"alice", "alice@mail.com", "secret", "Alice", "A"⟩)),
    (registration "bob" "bob@mail.com" "Bob",
      .ok (UserService.created 2 ⟨"bob", "bob@mail.com", "secret", "Bob", "A"⟩)),
    (newPost, .ok (WallService.created 1 ⟨1, "hello"⟩)),
    (newMessage, .ok (ChatService.created 1 1 1 "hi")),
    (.users readUsers, .ok ⟨.kOk, .arr [UserService.item ⟨2, "bob", some "Bob", some "A"⟩]⟩),
    (.posts readPosts, .ok ⟨.kOk, .arr [WallService.item ⟨1, 1, "hello", 0⟩]⟩),
    (.messages readMessages, .ok ⟨.kOk, .arr [ChatService.item ⟨1, 1, 1, "hi", 0⟩]⟩)]

theorem firstDay_runs : ∃ s,
    Runs.exec (service UserService.contains).step (Service.init Db.empty) firstDay = some s ∧
    s.shared.answered = firstDayAnswers ∧
    .message ⟨1, 1, 1, "hi", 0⟩ ∈ s.shared.store.rows := by
  have hmap : (Runs.exec (service UserService.contains).step (Service.init Db.empty) firstDay).map
      (fun s => (s.shared.answered, decide (.message ⟨1, 1, 1, "hi", 0⟩ ∈ s.shared.store.rows))) =
      some (firstDayAnswers, true) := by decide +kernel
  obtain ⟨s, hrun, heq⟩ := Option.map_eq_some_iff.mp hmap
  obtain ⟨hanswered, hrow⟩ := Prod.mk.inj heq
  exact ⟨s, hrun, hanswered, of_decide_eq_true hrow⟩

/-- The post of that day is stored, and named by one answer. -/
theorem creations_stand_firstDay : ∃ s,
    Runs.exec (service UserService.contains).step (Service.init Db.empty) firstDay = some s ∧
    Created s.shared.store newPost (WallService.created 1 ⟨1, "hello"⟩) ∧
    Service.shown named? (.posts 1) s.shared.answered ≤ 1 := by
  obtain ⟨s, hrun, hanswered, -⟩ := firstDay_runs
  obtain ⟨hstored, hone⟩ := creations_stand hrun
  refine ⟨s, hrun, hstored _ _ ?_ rfl, (hone _).1⟩
  rw [hanswered]
  simp only [firstDayAnswers, List.mem_cons, true_or, or_true]

/-! ## One user for a login -/

/-- A column of `users` that is unique, and the field of a registration it is filled from. -/
inductive Column
  | username
  | email

/-- The width of the column. -/
def Column.width : Column → Nat
  | username => 50
  | email => 255

def Column.of (u : UserService.User) : Column → String
  | username => u.username
  | email => u.email

def Column.field (p : UserService.Registration) : Column → ByteString
  | username => p.login
  | email => p.email

/-- The value that a statement has stored in the column. -/
def Column.added? (col : Column) : (c : Call) → Except CppError c.Answer → Option ByteString
  | .users (.insertUser login address _), .ok _ =>
    match col with
    | .username => some login
    | .email => some address
  | _, _ => none

/-- The value that an answer 201 has registered. -/
def Column.registered? (col : Column) (l : Request) (r : Except CppError Response) :
    Option ByteString :=
  match l, createdId? r with
  | .users q, some _ => q.post?.map fun p => col.field p
  | _, _ => none

/-- The value, as the column stores it, is taken. -/
def Column.Taken (col : Column) (db : Db) (v : ByteString) : Prop :=
  ∃ u ∈ db.users.users.rows, UserService.varchar col.width v = some (col.of u)

/-- In this phase a request has stored the value that it will register. -/
def Column.Recorded (col : Column) : Request → Phase → Option ByteString → Prop
  | .users q, .users (.added _), v => v = q.post?.map fun p => col.field p
  | .users q, .users (.registered _), v => v = q.post?.map fun p => col.field p
  | _, _, _ => True

theorem Column.recorded_step {col : Column} {l : Request} {g : Phase} {v : Option ByteString} {c : Call}
    (hok : g.allows l c) (h : col.Recorded l g v) (x : Except CppError c.Answer) :
    col.Recorded l (g.after c x) ((col.added? c x).or v) := by
  rcases Phase.allows_cases hok with ⟨r, g, c, rfl, rfl, rfl, hok⟩ |
    ⟨r, g, c, rfl, rfl, rfl, hok⟩ | ⟨r, g, c, rfl, rfl, rfl, hok⟩
  · cases c with
    | insertUser login address password_hash =>
      obtain ⟨rfl, p, hp, rfl, rfl, rfl⟩ := hok
      cases x with
      | error e => trivial
      | ok _ =>
        show _ = r.post?.map fun p => col.field p
        rw [hp]
        cases col <;> rfl
    | insertProfile user_id first_name last_name =>
      obtain ⟨rfl, -⟩ := hok
      cases x with
      | error e => trivial
      | ok _ => exact h
    | selectUsers login name => cases x <;> trivial
  · cases c <;> cases x <;> trivial
  · cases c with
    | selectChat from_ to_ => rcases x with e | _ | chat_id <;> trivial
    | _ => cases x <;> trivial

/-- A handler that answers 201 has taken its value. -/
theorem Column.handle_records (col : Column) (l : Request) :
    (HandleRequestThrow l).Obeys (Service.recorder (fun _ c x => col.added? c x) l)
      (fun r v => ∀ key, col.registered? l r = some key → v = some key) none := by
  refine Prog.Obeys.simulate (col.Recorded l) ?_ ?_ (handle_obeys l) ?_
  · exact fun g v c hok h => ⟨trivial, col.recorded_step hok h⟩
  · intro r g v hended h key hkey
    cases l with
    | users q =>
      cases hid : createdId? r with
      | none =>
        simp only [registered?, hid] at hkey
        cases hkey
      | some id =>
        simp only [registered?, hid] at hkey
        obtain ⟨response, rfl, hst⟩ := created_of_createdId hid
        cases g with
        | users g =>
          obtain ⟨p, user_id, -, rfl, -⟩ := hended response rfl hst
          exact h.trans hkey
        | _ => exact hended.elim
    | _ => cases hkey
  · cases l <;> trivial

/-- A value of the column identifies its user. -/
theorem Column.eq_of_value (col : Column) {u u' : UserService.User}
    (hu : u ∈ db.users.users.rows) (hu' : u' ∈ db.users.users.rows) (h : col.of u = col.of u') :
    u = u' := by
  cases col with
  | username => exact List.inj_on_of_nodup_map db.users.username_unique hu hu' h
  | email => exact List.inj_on_of_nodup_map db.users.email_unique hu hu' h

/-- The value that a statement stores was free. -/
theorem Column.taken_new {col : Column} {ω : Choice} {c : Call} {db db' : Db}
    {x : Except CppError c.Answer} {v : ByteString} (h : db.execute ilike ω c = some (db', x))
    (hv : col.added? c x = some v) : ¬ col.Taken db v ∧ col.Taken db' v := by
  obtain ⟨new, hadded, hperm⟩ := Db.execute_added h
  have huser : ∃ u, new = [.user u] ∧ UserService.varchar col.width v = some (col.of u) := by
    unfold added? at hv
    split at hv
    · obtain ⟨u, -, hstores, rfl⟩ := hadded
      cases col with
      | username =>
        cases hv
        exact ⟨u, rfl, hstores.1⟩
      | email =>
        cases hv
        exact ⟨u, rfl, hstores.2.1⟩
    · cases hv
  obtain ⟨u, rfl, hvalue⟩ := huser
  have hu : u ∈ db'.users.users.rows := Db.user_mem_rows.mp
    (hperm.mem_iff.mpr (List.mem_append_right _ (List.mem_singleton_self _)))
  refine ⟨fun ⟨u', hu', hvalue'⟩ => ?_, u, hu, hvalue⟩
  have hold := Db.user_mem_rows.mpr hu'
  have hsame : u = u' := col.eq_of_value hu (Db.user_mem_rows.mp (Db.execute_keeps h hold))
    (Option.some.inj (hvalue.symm.trans hvalue'))
  -- the key of a row that is added was free
  refine Db.key_free hperm (List.mem_singleton_self (Row.user u)) ?_
  rw [hsame]
  exact List.mem_map_of_mem hold

/-- A value that is taken stays taken. -/
theorem Column.taken_keep {col : Column} {ω : Choice} {c : Call} {db db' : Db}
    {x : Except CppError c.Answer} {v : ByteString} (h : db.execute ilike ω c = some (db', x))
    (hv : col.Taken db v) : col.Taken db' v := by
  obtain ⟨u, hu, hvalue⟩ := hv
  exact ⟨u, Db.user_mem_rows.mp (Db.execute_keeps h (Db.user_mem_rows.mpr hu)), hvalue⟩

/-- **Registrations.** No login and no email is registered by two of the answers 201 of a run, and
none that was taken at the start is registered at all. -/
theorem registered_once (hrun : Runs.exec (service ilike).step (Service.init db) as = some s)
    (col : Column) (v : ByteString) : Service.shown col.registered? v s.shared.answered ≤ 1 ∧
      (col.Taken db v → Service.shown col.registered? v s.shared.answered = 0) := by
  refine Service.shown_le_one col.Taken col.registered? col.handle_records ?_ ?_ ?_ hrun v
  · intro l c e
    cases c with
    | users c => cases c <;> rfl
    | posts c => cases c <;> rfl
    | messages c => cases c <;> rfl
  · exact fun ω c db db' x v h hv => col.taken_keep h hv
  · exact fun l ω c db db' x v h hv => col.taken_new h hv

theorem registered_once_firstDay : ∃ s,
    Runs.exec (service UserService.contains).step (Service.init Db.empty) firstDay = some s ∧
    Service.shown Column.username.registered? "bob" s.shared.answered ≤ 1 := by
  obtain ⟨s, hrun, -⟩ := firstDay_runs
  exact ⟨s, hrun, (registered_once hrun .username "bob").1⟩

end SocialNetwork.Platform

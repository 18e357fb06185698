import SocialNetwork.Lib.Assertions
import SocialNetwork.Platform.Protocol
import SocialNetwork.Platform.Rows

/-!
# The services on one database

Requests to `auth-service`, `user-service`, `wall-service` and `chat-service` are handled at the same
time, statement by statement on one database. `assertions` states what a request may rely on while
the others go on.
-/

namespace SocialNetwork.Platform

open ChatService (CppError HttpMethod HttpStatus Response errorBody)

/-! ## Requests -/

/-- `AuthHandler::HandleRequestThrow` (`auth-service/src/auth.cpp`). -/
def AuthHandler (method : HttpMethod) : Response :=
  if method ≠ .kPost then ⟨.kMethodNotAllowed, errorBody "Only POST allowed"⟩
  else ⟨.kOk, .obj [("token", .str "123")]⟩

/-- A request to one of the services. -/
inductive Request
  | auth (method : HttpMethod)
  | users (r : UserService.Request)
  | posts (r : WallService.Request)
  | messages (r : ChatService.Request)
deriving DecidableEq

def HandleRequestThrow : Request → Prog Call Call.Answer CppError Response
  | .auth method => .ret (AuthHandler method)
  | .users r => (UserService.HandleRequestThrow r).embed .users fun _ x => x
  | .posts r => (WallService.HandleRequestThrow r).embed .posts fun _ x => x
  | .messages r => (ChatService.HandleRequestThrow r).embed .messages fun _ x => x

/-- The services; what `ILIKE` matches is a parameter. -/
def service (ilike : String → String → Bool) :
    Service.Spec Request Call Call.Answer CppError Response Db Choice where
  handle := HandleRequestThrow
  execute ω c db := db.execute ilike ω c
  failure := .sqlError

abbrev State := Service.State Request Call Call.Answer CppError Response Db

abbrev Action := Service.Action Request Choice

/-! ## What a request has reached -/

/-- The phase of a request, service by service. -/
inductive Phase
  | auth
  | users (g : UserService.Phase)
  | posts (g : WallService.Phase)
  | messages (g : ChatService.Phase)
deriving DecidableEq

def Phase.allows : Request → Phase → Call → Prop
  | .users r, .users g, .users c => (UserService.monitor r).ok g c
  | .posts r, .posts g, .posts c => (WallService.monitor r).ok g c
  | .messages r, .messages g, .messages c => (ChatService.monitor r).ok g c
  | _, _, _ => False

def Phase.after : Phase → (c : Call) → Except CppError c.Answer → Phase
  | .users _, .users c, x => .users (UserService.Phase.after c x)
  | .posts _, .posts c, x => .posts (WallService.Phase.after c x)
  | .messages _, .messages c, x => .messages (ChatService.Phase.after c x)
  | g, _, _ => g

def Phase.init : Request → Phase
  | .auth _ => .auth
  | .users _ => .users .start
  | .posts _ => .posts .start
  | .messages _ => .messages .start

def monitor (l : Request) : Prog.Monitor Call Call.Answer CppError Phase where
  ok g c := g.allows l c
  next := Phase.after

/-- A request makes statements of its own service. -/
theorem Phase.allows_cases {l : Request} {g : Phase} {c : Call} (h : g.allows l c) :
    (∃ r g' c', l = .users r ∧ g = .users g' ∧ c = .users c' ∧ (UserService.monitor r).ok g' c') ∨
      (∃ r g' c', l = .posts r ∧ g = .posts g' ∧ c = .posts c' ∧ (WallService.monitor r).ok g' c') ∨
      ∃ r g' c', l = .messages r ∧ g = .messages g' ∧ c = .messages c' ∧
        (ChatService.monitor r).ok g' c' := by
  cases l with
  | auth method => cases g <;> cases c <;> exact h.elim
  | users r =>
    cases g <;> cases c <;> first | exact h.elim | exact .inl ⟨r, _, _, rfl, rfl, rfl, h⟩
  | posts r =>
    cases g <;> cases c <;> first | exact h.elim | exact .inr (.inl ⟨r, _, _, rfl, rfl, rfl, h⟩)
  | messages r =>
    cases g <;> cases c <;> first | exact h.elim | exact .inr (.inr ⟨r, _, _, rfl, rfl, rfl, h⟩)

/-- What is answered with 201 has been reached. -/
def Ended : Request → Except CppError Response → Phase → Prop
  | .auth _, x, _ => ∀ response, x = .ok response → response.status ≠ .kCreated
  | .users r, x, .users g => UserService.Ended r x g
  | .posts r, x, .posts g => WallService.Ended r x g
  | .messages r, x, .messages g => ChatService.Ended r x g
  | _, _, _ => False

/-- The user of a registration has been added. -/
def UserStored (db : Db) (p : UserService.Registration) (user_id : Int) : Prop :=
  ∃ u : UserService.User, .user u ∈ db.rows ∧ u.id = user_id ∧
    UserService.Db.Stores u p.login p.email p.password_hash

/-- The profile of a registration has been added. -/
def ProfileStored (db : Db) (p : UserService.Registration) (user_id : Int) : Prop :=
  ∃ q : UserService.Profile, .profile q ∈ db.rows ∧ q.user_id = user_id ∧
    UserService.Db.StoresNames q p.first_name p.last_name

/-- The post of a request has been added. -/
def PostStored (db : Db) (p : WallService.NewPost) (post_id : Int) : Prop :=
  ∃ now, .post ⟨post_id, p.user_id, p.content, now⟩ ∈ db.rows

/-- The chat is a private one of the two users. -/
def ChatStored (db : Db) (p : ChatService.Post) (chat_id : Int) : Prop :=
  (∃ title, .chat ⟨chat_id, title, false⟩ ∈ db.rows) ∧
    .member ⟨chat_id, p.from_⟩ ∈ db.rows ∧ .member ⟨chat_id, p.to_⟩ ∈ db.rows

/-- The message of a request has been added, to a chat of its two users. -/
def MessageStored (db : Db) (p : ChatService.Post) (chat_id message_id : Int) : Prop :=
  ChatStored db p chat_id ∧ ∃ now, .message ⟨message_id, chat_id, p.from_, p.text, now⟩ ∈ db.rows

section Mono

variable {db db' : Db} (hkeep : ∀ row ∈ db.rows, row ∈ db'.rows)
include hkeep

theorem UserStored.mono {p : UserService.Registration} {user_id : Int}
    (h : UserStored db p user_id) : UserStored db' p user_id := by
  obtain ⟨u, hu, hrest⟩ := h
  exact ⟨u, hkeep _ hu, hrest⟩

theorem ProfileStored.mono {p : UserService.Registration} {user_id : Int}
    (h : ProfileStored db p user_id) : ProfileStored db' p user_id := by
  obtain ⟨q, hq, hrest⟩ := h
  exact ⟨q, hkeep _ hq, hrest⟩

theorem PostStored.mono {p : WallService.NewPost} {post_id : Int} (h : PostStored db p post_id) :
    PostStored db' p post_id := by
  obtain ⟨now, hnow⟩ := h
  exact ⟨now, hkeep _ hnow⟩

theorem ChatStored.mono {p : ChatService.Post} {chat_id : Int} (h : ChatStored db p chat_id) :
    ChatStored db' p chat_id := by
  obtain ⟨⟨title, htitle⟩, hfrom, hto⟩ := h
  exact ⟨⟨title, hkeep _ htitle⟩, hkeep _ hfrom, hkeep _ hto⟩

theorem MessageStored.mono {p : ChatService.Post} {chat_id message_id : Int}
    (h : MessageStored db p chat_id message_id) : MessageStored db' p chat_id message_id := by
  obtain ⟨hchat, now, hnow⟩ := h
  exact ⟨hchat.mono hkeep, now, hkeep _ hnow⟩

end Mono

/-- What a request may rely on in its phase. -/
def Holds : Request → Phase → Db → Prop
  | .users r, .users (.added user_id), db =>
    ∀ p, r.post? = some p → UserStored db p user_id
  | .users r, .users (.registered user_id), db =>
    ∀ p, r.post? = some p → UserStored db p user_id ∧ ProfileStored db p user_id
  | .posts r, .posts (.stored post_id), db => ∀ p, r.post? = some p → PostStored db p post_id
  | .messages _, .messages (.created chat_id), db => ∃ title, .chat ⟨chat_id, title, false⟩ ∈ db.rows
  | .messages r, .messages (.ready chat_id), db => ∀ p, r.post? = some p → ChatStored db p chat_id
  | .messages r, .messages (.stored chat_id message_id), db =>
    ∀ p, r.post? = some p → MessageStored db p chat_id message_id
  | _, _, _ => True

theorem AuthHandler_status (method : HttpMethod) : (AuthHandler method).status ≠ .kCreated := by
  cases method <;> decide

theorem handle_obeys (l : Request) :
    (HandleRequestThrow l).Obeys (monitor l) (Ended l) (Phase.init l) := by
  cases l with
  | auth method =>
    intro response hr
    rw [← Except.ok.inj hr]
    exact AuthHandler_status method
  | users r =>
    exact Prog.Obeys.embed (monitor (.users r)) Phase.users (fun _ _ h => h)
      (fun _ _ _ => rfl) (UserService.handle_obeys r)
  | posts r =>
    exact Prog.Obeys.embed (monitor (.posts r)) Phase.posts (fun _ _ h => h)
      (fun _ _ _ => rfl) (WallService.handle_obeys r)
  | messages r =>
    exact Prog.Obeys.embed (monitor (.messages r)) Phase.messages (fun _ _ h => h)
      (fun _ _ _ => rfl) (ChatService.handle_obeys r)

/-- What a request relies on is kept by a database that loses no row. -/
theorem Holds.mono {l : Request} {g : Phase} {db db' : Db} (h : Holds l g db)
    (hkeep : ∀ row ∈ db.rows, row ∈ db'.rows) : Holds l g db' := by
  unfold Holds at h ⊢
  split at h
  · exact fun p hp => (h p hp).mono hkeep
  · exact fun p hp => ⟨(h p hp).1.mono hkeep, (h p hp).2.mono hkeep⟩
  · exact fun p hp => (h p hp).mono hkeep
  · obtain ⟨title, htitle⟩ := h
    exact ⟨title, hkeep _ htitle⟩
  · exact fun p hp => (h p hp).mono hkeep
  · exact fun p hp => (h p hp).mono hkeep
  · trivial

/-! ## Statements and phases -/

section Own

variable {ilike : String → String → Bool} {ω : Choice} {db db' : Db}

/-- The rows that an answered statement adds are there. -/
theorem exists_added {c : Call} {x : Except CppError c.Answer}
    (h : db.execute ilike ω c = some (db', x)) :
    ∃ new, Added c x new ∧ ∀ row ∈ new, row ∈ db'.rows := by
  obtain ⟨new, hadded, hperm⟩ := Db.execute_added h
  exact ⟨new, hadded, fun row hrow => hperm.mem_iff.mpr (List.mem_append_right _ hrow)⟩

theorem own_users {r : UserService.Request} {g : UserService.Phase} {c : UserService.SqlCall}
    {x : Except CppError c.Answer} (hok : (UserService.monitor r).ok g c)
    (h : Holds (.users r) (.users g) db) (hexec : db.execute ilike ω (.users c) = some (db', x)) :
    Holds (.users r) (.users (UserService.Phase.after c x)) db' := by
  obtain ⟨new, hadded, hnew⟩ := exists_added hexec
  cases c with
  | insertUser username email password_hash =>
    obtain ⟨rfl, p, hp, rfl, rfl, rfl⟩ := hok
    cases x with
    | error e => trivial
    | ok user_id =>
      obtain ⟨u, hid, hstores, rfl⟩ := hadded
      intro q hq
      obtain rfl : p = q := Option.some.inj (hp.symm.trans hq)
      exact ⟨u, hnew _ (List.mem_singleton_self _), hid, hstores⟩
  | insertProfile user_id first_name last_name =>
    obtain ⟨rfl, p, hp, rfl, rfl⟩ := hok
    cases x with
    | error e => trivial
    | ok _ =>
      obtain ⟨q, hid, hstores, rfl⟩ := hadded
      intro p' hp'
      obtain rfl : p = p' := Option.some.inj (hp.symm.trans hp')
      have hkept := h.mono fun row => Db.execute_keeps hexec
      exact ⟨hkept p hp, q, hnew _ (List.mem_singleton_self _), hid, hstores⟩
  | selectUsers login name => cases x <;> trivial

theorem own_posts {r : WallService.Request} {g : WallService.Phase} {c : WallService.SqlCall}
    {x : Except CppError c.Answer} (hok : (WallService.monitor r).ok g c)
    (hexec : db.execute ilike ω (.posts c) = some (db', x)) :
    Holds (.posts r) (.posts (WallService.Phase.after c x)) db' := by
  obtain ⟨new, hadded, hnew⟩ := exists_added hexec
  cases c with
  | insertPost author_id content =>
    obtain ⟨-, rfl, p, hp, rfl, rfl⟩ := hok
    cases x with
    | error e => trivial
    | ok post_id =>
      obtain ⟨now, rfl⟩ := hadded
      intro q hq
      obtain rfl : p = q := Option.some.inj (hp.symm.trans hq)
      exact ⟨now, hnew _ (List.mem_singleton_self _)⟩
  | selectPostsOf author_id => cases x <;> trivial
  | selectPosts => cases x <;> trivial

/-- A chat that is found is a private one of the two users. -/
theorem chatStored_of_selectChat {p : ChatService.Post} {chat_id : Int}
    (hexec : db.execute ilike ω (.messages (.selectChat p.from_ p.to_)) =
      some (db', .ok (some chat_id))) : ChatStored db' p chat_id := by
  obtain ⟨hchats, -⟩ := Db.execute_messages ilike hexec
  simp only [ChatService.Db.execute] at hchats
  split_ifs at hchats
  · cases (Prod.mk.inj (Option.some.inj hchats)).2
  · obtain ⟨id, hid, heq⟩ := Option.map_eq_some_iff.mp hchats
    obtain ⟨hdb, hx⟩ := Prod.mk.inj heq
    cases hx
    obtain ⟨⟨⟨id, title, group⟩, hchat, rfl, rfl⟩, hfrom, hto⟩ :=
      ChatService.Db.mem_selectChat.mp (List.mem_of_getElem? hid)
    rw [hdb] at hchat hfrom hto
    exact ⟨⟨title, Db.chat_mem_rows.mpr hchat⟩,
      Db.member_mem_rows.mpr (ChatService.Db.isMember_iff.mp hfrom),
      Db.member_mem_rows.mpr (ChatService.Db.isMember_iff.mp hto)⟩

theorem own_messages {r : ChatService.Request} {g : ChatService.Phase} {c : ChatService.SqlCall}
    {x : Except CppError c.Answer} (hok : (ChatService.monitor r).ok g c)
    (h : Holds (.messages r) (.messages g) db)
    (hexec : db.execute ilike ω (.messages c) = some (db', x)) :
    Holds (.messages r) (.messages (ChatService.Phase.after c x)) db' := by
  obtain ⟨new, hadded, hnew⟩ := exists_added hexec
  have hkept := h.mono fun row => Db.execute_keeps hexec
  cases c with
  | selectChat from_ to_ =>
    obtain ⟨rfl, p, hp, rfl, rfl⟩ := hok
    rcases x with e | _ | chat_id
    · trivial
    · trivial
    -- a chat that the lookup finds is a private chat of both users
    · intro q hq
      obtain rfl : p = q := Option.some.inj (hp.symm.trans hq)
      exact chatStored_of_selectChat hexec
  | insertChat title =>
    cases x with
    | error e => trivial
    | ok chat_id =>
      have hchat : new = [.chat ⟨chat_id, title, false⟩] := hadded
      refine ⟨title, hnew _ ?_⟩
      rw [hchat]
      exact List.mem_singleton_self _
  | insertMembers chat_id from_ to_ =>
    obtain ⟨rfl, p, hp, rfl, rfl⟩ := hok
    cases x with
    | error e => trivial
    | ok _ =>
      have hmembers : new = [.member ⟨chat_id, p.from_⟩, .member ⟨chat_id, p.to_⟩] := hadded
      intro q hq
      obtain rfl : p = q := Option.some.inj (hp.symm.trans hq)
      refine ⟨hkept, hnew _ ?_, hnew _ ?_⟩
      · rw [hmembers]
        exact List.mem_cons_self
      · rw [hmembers]
        exact List.mem_cons_of_mem _ (List.mem_singleton_self _)
  | insertMessage chat_id sender_id content =>
    obtain ⟨rfl, p, hp, rfl, rfl⟩ := hok
    cases x with
    | error e => trivial
    | ok message_id =>
      obtain ⟨now, hmessage⟩ := hadded
      intro q hq
      obtain rfl : p = q := Option.some.inj (hp.symm.trans hq)
      refine ⟨hkept p hp, now, hnew _ ?_⟩
      rw [hmessage]
      exact List.mem_singleton_self _
  | selectMessages user_id => cases x <;> trivial

/-- A request relies on nothing when one of its statements has failed. -/
theorem holds_failed {l : Request} {g : Phase} {c : Call} (hok : g.allows l c) (e : CppError)
    (db : Db) : Holds l (Phase.after g c (.error e)) db := by
  rcases Phase.allows_cases hok with ⟨r, g, c, rfl, rfl, rfl, -⟩ | ⟨r, g, c, rfl, rfl, rfl, -⟩ |
    ⟨r, g, c, rfl, rfl, rfl, -⟩
  · cases c <;> trivial
  · cases c <;> trivial
  · cases c <;> trivial

end Own

/-- **Assertions.** What a request may rely on in its phase, whatever the others do. -/
def assertions (ilike : String → String → Bool) : Service.Assertions (service ilike) Phase where
  monitor := monitor
  start := Phase.init
  holds := Holds
  ended := Ended
  obeys := handle_obeys
  holds_start l db := by cases l <;> trivial
  own {l g ω c db db' x} hok h hexec := by
    have hexec : db.execute ilike ω c = some (db', x) := hexec
    rcases Phase.allows_cases hok with ⟨r, g, c, rfl, rfl, rfl, hok⟩ |
      ⟨r, g, c, rfl, rfl, rfl, hok⟩ | ⟨r, g, c, rfl, rfl, rfl, hok⟩
    · exact own_users hok h hexec
    · exact own_posts hok hexec
    · exact own_messages hok h hexec
  failed hok _ := holds_failed hok _ _
  stable h hexec := h.mono fun _ => Db.execute_keeps hexec

end SocialNetwork.Platform

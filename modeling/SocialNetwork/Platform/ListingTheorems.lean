import SocialNetwork.Platform.SourceTheorems
import SocialNetwork.UserService.ListingTheorems

/-!
# What the services list

Every listing is what the database held at one moment while the request was in flight: exactly the
rows that were asked for, in the order that was asked for. It lists what was answered with 201 before
the request arrived.
-/

namespace SocialNetwork.Platform

open ChatService (CppError HttpMethod Response arrayBody stoi)
open Text (ByteString)

variable {ilike : String → String → Bool} {db : Db} {as : List Action} {s : State}

/-! ## Moments -/

/-- No row is lost from one moment to a later one. -/
theorem rows_later {n n' : Nat} {m m' : State}
    (hm : Runs.At (service ilike).step (Service.init db) as n m)
    (hm' : Runs.At (service ilike).step (Service.init db) as n' m') (hn : n ≤ n') :
    ∀ row ∈ m.shared.store.rows, row ∈ m'.shared.store.rows :=
  Service.store_later (P := fun db db' : Db => ∀ row ∈ db.rows, row ∈ db'.rows) (fun _ _ h => h)
    (fun _ _ _ h h' row hrow => h' row (h row hrow))
    (fun _ _ _ _ _ h _ => Db.execute_keeps h) hm hm' hn

theorem Created.mono {db db' : Db} {l : Request} {response : Response} (h : Created db l response)
    (hkeep : ∀ row ∈ db.rows, row ∈ db'.rows) : Created db' l response := by
  cases l with
  | auth method => exact h
  | users r =>
    obtain ⟨p, id, hp, hresponse, huser, hprofile⟩ := h
    exact ⟨p, id, hp, hresponse, huser.mono hkeep, hprofile.mono hkeep⟩
  | posts r =>
    obtain ⟨p, id, hp, hresponse, hpost⟩ := h
    exact ⟨p, id, hp, hresponse, hpost.mono hkeep⟩
  | messages r =>
    obtain ⟨p, chat_id, id, hp, hresponse, hmessage⟩ := h
    exact ⟨p, chat_id, id, hp, hresponse, hmessage.mono hkeep⟩

/-- The request was answered with 201 before the `n`-th action of the run. -/
def CreatedBefore (ilike : String → String → Bool) (db : Db) (as : List Action) (n : Nat)
    (l : Request) (response : Response) : Prop :=
  ∃ k ≤ n, ∃ m, Runs.At (service ilike).step (Service.init db) as k m ∧
    (l, .ok response) ∈ m.shared.answered ∧ response.status = .kCreated

/-- What was answered with 201 is stored at every later moment. -/
theorem CreatedBefore.created {n n' : Nat} {l : Request} {response : Response}
    (h : CreatedBefore ilike db as n l response) (hn : n ≤ n') {m' : State}
    (hm' : Runs.At (service ilike).step (Service.init db) as n' m') :
    Created m'.shared.store l response := by
  obtain ⟨k, hk, m, hm, hanswered, hst⟩ := h
  exact (created_at hm hanswered hst).mono (rows_later hm hm' (by omega))

/-- The `k`-th answer is given to the request that arrived with the action `n₀`, and to no other, and
the state `m` is that of a moment `j` at which this request was in flight. -/
structure InFlightAt (ilike : String → String → Bool) (db : Db) (as : List Action) (k : Nat)
    (l : Request) (n₀ j : Nat) (m : State) : Prop where
  answer : Service.AnswersTo as k n₀
  arrived : as[n₀]? = some (.request l)
  order : n₀ < j ∧ j < as.length
  moment : Runs.At (service ilike).step (Service.init db) as j m
  flight : Service.InFlight as j n₀

/-! ### Read before and after -/

/-- What is read on the first day is read before it, too. -/
def readTwice : List Action :=
  [.request (.users readUsers), .call 0 noChoice, .finish 0, .request (.posts readPosts),
    .call 0 noChoice, .finish 0, .request (.messages readMessages), .call 0 noChoice, .finish 0] ++
  firstDay

def readTwiceAnswers : List (Request × Except CppError Response) :=
  [(.users readUsers, .ok ⟨.kOk, .null⟩), (.posts readPosts, .ok ⟨.kOk, .null⟩),
    (.messages readMessages, .ok ⟨.kOk, .null⟩)] ++ firstDayAnswers

theorem readTwice_runs : ∃ s,
    Runs.exec (service UserService.contains).step (Service.init Db.empty) readTwice = some s ∧
    s.shared.answered = readTwiceAnswers := by
  have hmap : (Runs.exec (service UserService.contains).step (Service.init Db.empty) readTwice).map
      (fun s => s.shared.answered) = some readTwiceAnswers := by decide +kernel
  exact Option.map_eq_some_iff.mp hmap

/-- When the second listings arrive, everything else has been answered. -/
theorem createdBefore_readTwice {n : Nat} (hn : 26 ≤ n) {l : Request} {response : Response}
    (h : (l, .ok response) ∈ readTwiceAnswers.take 7) (hst : response.status = .kCreated) :
    CreatedBefore UserService.contains Db.empty readTwice n l response := by
  have hmap : (Runs.exec (service UserService.contains).step (Service.init Db.empty)
      (readTwice.take 26)).map (fun s => s.shared.answered) = some (readTwiceAnswers.take 7) := by
    decide +kernel
  obtain ⟨m, hm, hanswered⟩ := Option.map_eq_some_iff.mp hmap
  exact ⟨26, hn, m, ⟨by decide, hm⟩, hanswered ▸ h, hst⟩

/-! ## Posts -/

/-- The posts of this author are asked for. -/
def asksFor (request : WallService.Request) (author_id : Int) : Prop :=
  request.user_id = "" ∨ stoi request.user_id = .ok author_id

/-- The posts that a `GET` asks for. -/
def wanted (request : WallService.Request) (db : Db) : List WallService.Post :=
  if request.user_id = "" then db.wall.posts.rows
  else
    match stoi request.user_id with
    | .ok user_id => db.wall.selectPostsOf user_id
    | .error _ => []

theorem mem_wanted {request : WallService.Request} {db : Db} {row : WallService.Post}
    (hrow : row ∈ db.wall.posts.rows) (hasks : asksFor request row.author_id) :
    row ∈ wanted request db := by
  unfold wanted
  split_ifs with hempty
  · exact hrow
  · rw [hasks.resolve_left hempty]
    exact List.mem_filter.mpr ⟨hrow, decide_eq_true rfl⟩

theorem wanted_subset {request : WallService.Request} {db : Db} {row : WallService.Post}
    (hrow : row ∈ wanted request db) : row ∈ db.wall.posts.rows := by
  unfold wanted at hrow
  split_ifs at hrow
  · exact hrow
  · cases hs : stoi request.user_id with
    | error e =>
      rw [hs] at hrow
      exact absurd hrow List.not_mem_nil
    | ok user_id =>
      rw [hs] at hrow
      exact (List.mem_filter.mp hrow).1

/-- A result that is encoded is encoded row by row. -/
theorem told_posts {n₀ n f : Nat} {rows : List WallService.Post} {response : Response}
    (h : Service.Told (service ilike) db as n₀ f n
      ((WallService.items rows >>= fun arr => pure ⟨.kOk, arrayBody arr⟩).embed Call.posts
        fun _ x => x) (.ok response)) :
    response = ⟨.kOk, arrayBody (rows.map WallService.item)⟩ := by
  rw [WallService.items_eq] at h
  split_ifs at h
  · cases h
    rfl
  · cases h

theorem listed_posts {ω : Choice} {db db' : Db} {rows : List WallService.Post}
    (h : (service ilike).execute ω (.posts .selectPosts) db = some (db', .ok rows)) :
    rows.Perm db.wall.posts.rows ∧ WallService.Db.newestFirst rows := by
  have hexec := (Db.execute_posts ilike h).1
  simp only [WallService.Db.execute] at hexec
  split_ifs at hexec with horders
  obtain ⟨-, hx⟩ := Prod.mk.inj (Option.some.inj hexec)
  cases hx
  exact horders

theorem listed_posts_of {ω : Choice} {db db' : Db} {user_id : Int} {rows : List WallService.Post}
    (h : (service ilike).execute ω (.posts (.selectPostsOf user_id)) db = some (db', .ok rows)) :
    rows.Perm (db.wall.selectPostsOf user_id) ∧ WallService.Db.newestFirst rows := by
  have hexec := (Db.execute_posts ilike h).1
  simp only [WallService.Db.execute] at hexec
  split_ifs at hexec with horders
  obtain ⟨-, hx⟩ := Prod.mk.inj (Option.some.inj hexec)
  cases hx
  exact horders

/-- The one statement of a `GET` that is answered with 200. -/
theorem told_get_posts {n₀ n f : Nat} {request : WallService.Request} {response : Response}
    (hget : request.method = .kGet) (hst : response.status = .kOk)
    (h : Service.Told (service ilike) db as n₀ f n
      (HandleRequestThrow (.posts request)) (.ok response)) :
    ∃ j m rows, n ≤ j ∧ j < f ∧ Runs.At (service ilike).step (Service.init db) as j m ∧
      Service.InFlight as j n₀ ∧ rows.Perm (wanted request m.shared.store) ∧
      WallService.Db.newestFirst rows ∧
      response = ⟨.kOk, arrayBody (rows.map WallService.item)⟩ := by
  have hauth : request.authorization = "Bearer 123" := by
    by_contra hauth
    rw [HandleRequestThrow, WallService.HandleRequestThrow, if_pos hauth] at h
    cases h
    cases hst
  rw [HandleRequestThrow, WallService.handle_get hauth hget] at h
  -- without a user_id the whole wall is read
  by_cases hempty : request.user_id = ""
  · rw [if_neg (not_not.mpr hempty)] at h
    obtain ⟨j, m, m', ω, x, rows, hj, hlt, hm, hflight, hexec, rfl, -, hrest⟩ :=
      Service.told_embed_bind (fun _ _ => rfl) h
    obtain ⟨hperm, hnewest⟩ := listed_posts hexec
    refine ⟨j, m, rows, hj, hlt, hm, hflight, ?_, hnewest, told_posts hrest⟩
    rw [wanted, if_pos hempty]
    exact hperm
  · rw [if_pos hempty] at h
    cases hs : stoi request.user_id with
    | error e =>
      rw [hs] at h
      cases h
    | ok user_id =>
      rw [hs] at h
      obtain ⟨j, m, m', ω, x, rows, hj, hlt, hm, hflight, hexec, rfl, -, hrest⟩ :=
        Service.told_embed_bind (fun _ _ => rfl) h
      obtain ⟨hperm, hnewest⟩ := listed_posts_of hexec
      refine ⟨j, m, rows, hj, hlt, hm, hflight, ?_, hnewest, told_posts hrest⟩
      rw [wanted, if_neg hempty, hs]
      exact hperm

/-- **The wall.** A `GET` answered with 200 lists what the table held at one moment while the request
was in flight: exactly the posts it asks for, each once, newest first. Every listed post is by a
registered user and was there at the start or was posted with the token by a request that arrived
before; every post answered with 201 before the `GET` arrived is among them, if it is asked for. -/
theorem posts_listed (hrun : Runs.exec (service ilike).step (Service.init db) as = some s)
    {k : Nat} {request : WallService.Request} {response : Response}
    (h : s.shared.answered[k]? = some (.posts request, .ok response)) (hget : request.method = .kGet)
    (hst : response.status = .kOk) :
    ∃ n₀ j m rows, InFlightAt ilike db as k (.posts request) n₀ j m ∧
      response = ⟨.kOk, arrayBody (rows.map WallService.item)⟩ ∧
      rows.Perm (wanted request m.shared.store) ∧ WallService.Db.newestFirst rows ∧
      (∀ row ∈ rows, row.author_id ∈ m.shared.store.users.ids ∧
        Sourced db as j m.shared.store (.post row)) ∧
      ∀ r response', CreatedBefore ilike db as n₀ (.posts r) response' →
        ∃ p id, r.post? = some p ∧ response' = WallService.created id p ∧
          (asksFor request p.user_id → ∃ now, ⟨id, p.user_id, p.content, now⟩ ∈ rows) := by
  obtain ⟨n₀, hanswer, -, harrived, htold⟩ := Service.answered_told hrun h
  obtain ⟨j, m, rows, hn₀, hj, hm, hflight, hperm, hnewest, hresponse⟩ :=
    told_get_posts hget hst htold
  refine ⟨n₀, j, m, rows, ⟨hanswer, harrived, ⟨by omega, hj⟩, hm, hflight⟩, hresponse, hperm, hnewest,
    ?_, ?_⟩
  · intro row hrow
    have hmem := wanted_subset (hperm.mem_iff.mp hrow)
    refine ⟨?_, sourced_at hm (Db.post_mem_rows.mpr hmem)⟩
    rw [← m.shared.store.wall_users]
    exact m.shared.store.wall.post_author row hmem
  · intro r response' hcreated
    obtain ⟨p, id, hp, hresponse', now, hnow⟩ := hcreated.created (by omega) hm
    refine ⟨p, id, hp, hresponse', fun hasks => ⟨now, ?_⟩⟩
    exact hperm.mem_iff.mpr (mem_wanted (Db.post_mem_rows.mp hnow) hasks)

/-- The same `GET` lists nothing before the post, and the post after it. -/
theorem posts_listed_readTwice : ∃ n₀ j m, ∃ rows : List WallService.Post,
    InFlightAt UserService.contains Db.empty readTwice 8 (.posts readPosts) n₀ j m ∧
    rows.Perm (wanted readPosts m.shared.store) ∧ ∃ now, ⟨1, 1, "hello", now⟩ ∈ rows := by
  obtain ⟨s, hrun, hanswered⟩ := readTwice_runs
  have hread : s.shared.answered[8]? = some (Request.posts readPosts,
      .ok ⟨.kOk, .arr [WallService.item ⟨1, 1, "hello", 0⟩]⟩) := by
    rw [hanswered]
    rfl
  obtain ⟨n₀, j, m, rows, hflight, -, hperm, -, -, hlisted⟩ := posts_listed hrun hread rfl rfl
  have harrived : n₀ = 29 := Option.some.inj (hflight.answer.answer.symm.trans (by decide))
  obtain ⟨p, id, hp, hresponse, hmem⟩ := hlisted _ (WallService.created 1 ⟨1, "hello"⟩)
    (createdBefore_readTwice (l := newPost) (by omega) (by decide +kernel) rfl)
  obtain rfl : (⟨1, "hello"⟩ : WallService.NewPost) = p := Option.some.inj (Eq.trans (by decide) hp)
  obtain rfl : 1 = id := Option.some.inj (congrArg (fun r => createdId? (.ok r)) hresponse)
  exact ⟨n₀, j, m, rows, hflight, hperm, hmem (.inl rfl)⟩

/-! ## Users -/

theorem listed_users {ω : Choice} {db db' : Db} {login name : ByteString}
    {rows : List UserService.Row}
    (h : (service ilike).execute ω (.users (.selectUsers login name)) db = some (db', .ok rows)) :
    rows = (db.users.sorted ilike login name).map db.users.row := by
  have hexec : (db.users.execute ilike (.selectUsers login name)).2 = .ok rows :=
    (Prod.mk.inj (Option.some.inj h)).2
  by_cases hsend : UserService.sendable login ∧ UserService.sendable name
  · simp only [UserService.Db.execute, UserService.Db.selectUsers_eq hsend] at hexec
    exact (Except.ok.inj hexec).symm
  · have hnone : db.users.selectUsers ilike login name = none := if_neg hsend
    simp only [UserService.Db.execute, hnone] at hexec
    cases hexec

/-- The one statement of a `GET` that is answered. -/
theorem told_get_users {n₀ n f : Nat} {request : UserService.Request} {response : Response}
    (hget : request.method = .kGet)
    (h : Service.Told (service ilike) db as n₀ f n
      (HandleRequestThrow (.users request)) (.ok response)) :
    ∃ j m us, n ≤ j ∧ j < f ∧ Runs.At (service ilike).step (Service.init db) as j m ∧
      Service.InFlight as j n₀ ∧
      us = m.shared.store.users.sorted ilike request.login request.name ∧
      (∀ u ∈ us, m.shared.store.users.hasProfile u) ∧
      response = ⟨.kOk, arrayBody (us.map fun u =>
        UserService.item (m.shared.store.users.row u))⟩ := by
  rw [HandleRequestThrow, UserService.handle_get hget] at h
  obtain ⟨j, m, m', ω, x, rows, hj, hlt, hm, hflight, hexec, rfl, -, hrest⟩ :=
    Service.told_embed_bind (fun _ _ => rfl) h
  have hrows := listed_users hexec
  refine ⟨j, m, _, hj, hlt, hm, hflight, rfl, ?_⟩
  rcases UserService.items_eq rows with ⟨hread, hitems⟩ | ⟨-, e, hitems⟩
  · simp only [hitems] at hrest
    cases hrest
    refine ⟨fun u hu => ?_, ?_⟩
    · refine (UserService.Db.readable_row u).mp (hread _ ?_) |>.2
      rw [hrows]
      exact List.mem_map_of_mem hu
    · rw [hrows, List.map_map]
      rfl
  · simp only [hitems] at hrest
    cases hrest

/-- A user with a profile is listed with its names. -/
theorem row_eq {db : UserService.Db} {u : UserService.User} {q : UserService.Profile}
    (hq : q ∈ db.profiles.rows) (hid : q.user_id = u.id) :
    db.row u = ⟨u.id, u.username, some q.first_name, some q.last_name⟩ := by
  have hfind : db.profiles.rows.find? (fun p => decide (p.user_id = u.id)) = some q := by
    cases hf : db.profiles.rows.find? (fun p => decide (p.user_id = u.id)) with
    | none =>
      have hnone := List.find?_eq_none.mp hf q hq
      exact absurd (decide_eq_true hid) hnone
    | some q' =>
      have hid' : q'.user_id = u.id := of_decide_eq_true (List.find?_some
        (p := fun p : UserService.Profile => decide (p.user_id = u.id)) hf)
      rw [db.profiles.eq_of_key (List.mem_of_find?_eq_some hf) hq (hid'.trans hid.symm)]
  rw [UserService.Db.row, hfind]
  rfl

/-- **The users.** A `GET` answered with 200 lists what the tables held at one moment while the
request was in flight: exactly the users that its filters select, in the order of their ids, each
with its profile and each there at the start or registered by a request that arrived before. A user
whose registration was answered with 201 before the `GET` arrived is among them, under the names of
the registration, if the filters select it. -/
theorem users_listed (hrun : Runs.exec (service ilike).step (Service.init db) as = some s)
    {k : Nat} {request : UserService.Request} {response : Response}
    (h : s.shared.answered[k]? = some (.users request, .ok response)) (hget : request.method = .kGet) :
    ∃ n₀ j m, ∃ us : List UserService.User, InFlightAt ilike db as k (.users request) n₀ j m ∧
      response = ⟨.kOk, arrayBody (us.map fun u =>
        UserService.item (m.shared.store.users.row u))⟩ ∧
      us.Perm (m.shared.store.users.selected ilike request.login request.name) ∧
      (us.Pairwise fun u u' => u.id < u'.id) ∧
      (∀ u ∈ us, m.shared.store.users.hasProfile u ∧ Sourced db as j m.shared.store (.user u)) ∧
      ∀ r response', CreatedBefore ilike db as n₀ (.users r) response' →
        ∃ p id u q, r.post? = some p ∧ response' = UserService.created id p ∧
          UserService.Db.Stores u p.login p.email p.password_hash ∧
          UserService.Db.StoresNames q p.first_name p.last_name ∧
          m.shared.store.users.row u = ⟨id, u.username, some q.first_name, some q.last_name⟩ ∧
          ((m.shared.store.users.row u).selected ilike request.login request.name → u ∈ us) := by
  obtain ⟨n₀, hanswer, -, harrived, htold⟩ := Service.answered_told hrun h
  obtain ⟨j, m, us, hn₀, hj, hm, hflight, rfl, hprofiles, hresponse⟩ := told_get_users hget htold
  refine ⟨n₀, j, m, _, ⟨hanswer, harrived, ⟨by omega, hj⟩, hm, hflight⟩, hresponse,
    UserService.Db.sorted_perm, UserService.Db.sorted_pairwise, fun u hu => ⟨hprofiles u hu, ?_⟩, ?_⟩
  · have hmem := (List.mem_filter.mp (UserService.Db.sorted_perm.mem_iff.mp hu)).1
    exact sourced_at hm (Db.user_mem_rows.mpr hmem)
  · intro r response' hcreated
    -- rows are never removed, so user and profile are still there when the listing reads
    obtain ⟨p, id, hp, hresponse', ⟨u, hu, rfl, hstores⟩, q, hq, hid, hnames⟩ :=
      hcreated.created (by omega) hm
    refine ⟨p, u.id, u, q, hp, hresponse', hstores, hnames,
      row_eq (Db.profile_mem_rows.mp hq) hid, fun hselected => ?_⟩
    exact UserService.Db.sorted_perm.mem_iff.mpr
      (List.mem_filter.mpr ⟨Db.user_mem_rows.mp hu, hselected⟩)

/-- Bob is listed after his registration. -/
theorem users_listed_readTwice : ∃ n₀ j m, ∃ us : List UserService.User,
    InFlightAt UserService.contains Db.empty readTwice 7 (.users readUsers) n₀ j m ∧
    us.Perm (m.shared.store.users.selected UserService.contains "bob" "") ∧
    ∃ u ∈ us, m.shared.store.users.row u = ⟨2, "bob", some "Bob", some "A"⟩ := by
  obtain ⟨s, hrun, hanswered⟩ := readTwice_runs
  have hread : s.shared.answered[7]? = some (Request.users readUsers,
      .ok ⟨.kOk, .arr [UserService.item ⟨2, "bob", some "Bob", some "A"⟩]⟩) := by
    rw [hanswered]
    rfl
  obtain ⟨n₀, j, m, us, hflight, -, hperm, -, -, hlisted⟩ := users_listed hrun hread rfl
  have harrived : n₀ = 26 := Option.some.inj (hflight.answer.answer.symm.trans (by decide))
  obtain ⟨p, id, u, q, hp, hresponse, hstores, hnames, hrow, hmem⟩ := hlisted _
    (UserService.created 2 ⟨"bob", "bob@mail.com", "secret", "Bob", "A"⟩)
    (createdBefore_readTwice (l := registration "bob" "bob@mail.com" "Bob") (by omega)
      (by decide +kernel) rfl)
  obtain rfl : (⟨"bob", "bob@mail.com", "secret", "Bob", "A"⟩ : UserService.Registration) = p :=
    Option.some.inj (Eq.trans (by decide) hp)
  obtain rfl : 2 = id := Option.some.inj (congrArg (fun r => createdId? (.ok r)) hresponse)
  -- the names fit their columns, so they are stored as they are
  have husername : "bob" = u.username := Option.some.inj (Eq.trans (by decide) hstores.1)
  have hfirst : "Bob" = q.first_name := Option.some.inj (Eq.trans (by decide) hnames.1)
  have hlast : "A" = q.last_name := Option.some.inj (Eq.trans (by decide) hnames.2)
  rw [← husername, ← hfirst, ← hlast] at hrow
  refine ⟨n₀, j, m, us, hflight, hperm, u, hmem ?_, hrow⟩
  rw [hrow]
  rfl

/-! ## Messages -/

theorem listed_messages {ω : Choice} {db db' : Db} {user_id : Int} {rows : List ChatService.Message}
    (h : (service ilike).execute ω (.messages (.selectMessages user_id)) db =
      some (db', .ok rows)) :
    rows.Perm (db.chats.selectMessages user_id) ∧ ChatService.Db.newestFirst rows := by
  have hexec := (Db.execute_messages ilike h).1
  simp only [ChatService.Db.execute] at hexec
  split_ifs at hexec with horders
  obtain ⟨-, hx⟩ := Prod.mk.inj (Option.some.inj hexec)
  cases hx
  exact horders

theorem told_messages {n₀ n f : Nat} {rows : List ChatService.Message} {response : Response}
    (h : Service.Told (service ilike) db as n₀ f n
      ((ChatService.items rows >>= fun arr => pure ⟨.kOk, arrayBody arr⟩).embed Call.messages
        fun _ x => x) (.ok response)) :
    response = ⟨.kOk, arrayBody (rows.map ChatService.item)⟩ := by
  rw [ChatService.items_eq] at h
  split_ifs at h
  · cases h
    rfl
  · cases h

/-- The one statement of a `GET` that is answered with 200. -/
theorem told_get_messages {n₀ n f : Nat} {request : ChatService.Request} {response : Response}
    {user_id : Int} (hget : request.get? = some user_id)
    (h : Service.Told (service ilike) db as n₀ f n
      (HandleRequestThrow (.messages request)) (.ok response)) :
    ∃ j m rows, n ≤ j ∧ j < f ∧ Runs.At (service ilike).step (Service.init db) as j m ∧
      Service.InFlight as j n₀ ∧
      rows.Perm (m.shared.store.chats.selectMessages user_id) ∧
      ChatService.Db.newestFirst rows ∧
      response = ⟨.kOk, arrayBody (rows.map ChatService.item)⟩ := by
  rw [HandleRequestThrow, ChatService.handle_get hget] at h
  obtain ⟨j, m, m', ω, x, rows, hj, hlt, hm, hflight, hexec, rfl, -, hrest⟩ :=
    Service.told_embed_bind (fun _ _ => rfl) h
  obtain ⟨hperm, hnewest⟩ := listed_messages hexec
  exact ⟨j, m, rows, hj, hlt, hm, hflight, hperm, hnewest, told_messages hrest⟩

/-- A `GET` that is answered with 200 names a user. -/
theorem get_of_kOk {n₀ n f : Nat} {request : ChatService.Request} {response : Response}
    (hget : request.method = .kGet) (hst : response.status = .kOk)
    (h : Service.Told (service ilike) db as n₀ f n
      (HandleRequestThrow (.messages request)) (.ok response)) :
    ∃ user_id, request.get? = some user_id ∧ stoi request.user_id = .ok user_id := by
  rw [HandleRequestThrow] at h
  unfold ChatService.HandleRequestThrow at h
  split_ifs at h with hauth hpost hempty
  · cases h
    cases hst
  · rw [hget] at hpost
    cases hpost
  · cases h
    cases hst
  · cases hs : stoi request.user_id with
    | error e =>
      rw [hs] at h
      cases h
    | ok user_id =>
      refine ⟨user_id, ?_, rfl⟩
      rw [ChatService.Request.get?, if_pos ⟨not_not.mp hauth, hget, hempty⟩, hs]
      rfl

/-- **The messages.** A `GET` answered with 200 lists what the tables held at one moment while the
request was in flight: exactly the messages of the chats the user is a member of, each once, newest
first. Every listed message was there at the start or was sent with the token by a request that
arrived before; a message answered with 201 before the `GET` arrived is among them, if the user sent
it or it was sent to the user. -/
theorem messages_listed (hrun : Runs.exec (service ilike).step (Service.init db) as = some s)
    {k : Nat} {request : ChatService.Request} {response : Response}
    (h : s.shared.answered[k]? = some (.messages request, .ok response)) (hget : request.method = .kGet)
    (hst : response.status = .kOk) :
    ∃ n₀ j m user_id, ∃ rows : List ChatService.Message,
      InFlightAt ilike db as k (.messages request) n₀ j m ∧ stoi request.user_id = .ok user_id ∧
      response = ⟨.kOk, arrayBody (rows.map ChatService.item)⟩ ∧
      rows.Nodup ∧ ChatService.Db.newestFirst rows ∧
      (∀ row, row ∈ rows ↔ row ∈ m.shared.store.chats.messages.rows ∧
        m.shared.store.chats.isMember row.chat_id user_id = true) ∧
      (∀ row ∈ rows, Sourced db as j m.shared.store (.message row)) ∧
      ∀ r response', CreatedBefore ilike db as n₀ (.messages r) response' →
        ∃ p chat_id id, r.post? = some p ∧
          response' = ChatService.created id chat_id p.from_ p.text ∧
          (user_id = p.from_ ∨ user_id = p.to_ →
            ∃ now, ⟨id, chat_id, p.from_, p.text, now⟩ ∈ rows) := by
  obtain ⟨n₀, hanswer, -, harrived, htold⟩ := Service.answered_told hrun h
  obtain ⟨user_id, hreads, hs⟩ := get_of_kOk hget hst htold
  obtain ⟨j, m, rows, hn₀, hj, hm, hflight, hperm, hnewest, hresponse⟩ :=
    told_get_messages hreads htold
  have hmem : ∀ row, row ∈ rows ↔ row ∈ m.shared.store.chats.messages.rows ∧
      m.shared.store.chats.isMember row.chat_id user_id = true := fun row =>
    hperm.mem_iff.trans ChatService.Db.mem_selectMessages
  refine ⟨n₀, j, m, user_id, rows, ⟨hanswer, harrived, ⟨by omega, hj⟩, hm, hflight⟩, hs, hresponse, ?_,
    hnewest, hmem, fun row hrow => sourced_at hm (Db.message_mem_rows.mpr ((hmem row).mp hrow).1), ?_⟩
  · -- a message is read once, since a user is once a member of a chat
    rw [hperm.nodup_iff, List.nodup_iff_count_le_one]
    intro row
    by_cases hrow : row ∈ m.shared.store.chats.messages.rows
    · rw [ChatService.Db.count_selectMessages hrow]
      split_ifs <;> omega
    · rw [List.count_eq_zero_of_not_mem fun h =>
        hrow (ChatService.Db.mem_selectMessages.mp h).1]
      omega
  · intro r response' hcreated
    obtain ⟨p, chat_id, id, hp, hresponse', ⟨-, hfrom, hto⟩, now, hnow⟩ :=
      hcreated.created (by omega) hm
    refine ⟨p, chat_id, id, hp, hresponse', fun huser => ⟨now, (hmem _).mpr ?_⟩⟩
    refine ⟨Db.message_mem_rows.mp hnow, ChatService.Db.isMember_iff.mpr ?_⟩
    rcases huser with rfl | rfl
    · exact Db.member_mem_rows.mp hfrom
    · exact Db.member_mem_rows.mp hto

/-- Bob reads no message before the one that Alice sends, and that one after it. -/
theorem messages_listed_readTwice : ∃ n₀ j m, ∃ rows : List ChatService.Message,
    InFlightAt UserService.contains Db.empty readTwice 9 (.messages readMessages) n₀ j m ∧
    (∀ row, row ∈ rows ↔ row ∈ m.shared.store.chats.messages.rows ∧
      m.shared.store.chats.isMember row.chat_id 2 = true) ∧
    ∃ now, ⟨1, 1, 1, "hi", now⟩ ∈ rows := by
  obtain ⟨s, hrun, hanswered⟩ := readTwice_runs
  have hread : s.shared.answered[9]? = some (Request.messages readMessages,
      .ok ⟨.kOk, .arr [ChatService.item ⟨1, 1, 1, "hi", 0⟩]⟩) := by
    rw [hanswered]
    rfl
  obtain ⟨n₀, j, m, user_id, rows, hflight, huser, -, -, -, hall, -, hlisted⟩ :=
    messages_listed hrun hread rfl rfl
  have harrived : n₀ = 32 := Option.some.inj (hflight.answer.answer.symm.trans (by decide))
  obtain rfl : 2 = user_id := Except.ok.inj (Eq.trans (by decide) huser)
  obtain ⟨p, chat_id, id, hp, hresponse, hmem⟩ := hlisted _ (ChatService.created 1 1 1 "hi")
    (createdBefore_readTwice (l := newMessage) (by omega) (by decide +kernel) rfl)
  obtain rfl : (⟨1, 2, "hi"⟩ : ChatService.Post) = p := Option.some.inj (Eq.trans (by decide) hp)
  have hbody : (1 : Int) = id ∧ (1 : Int) = chat_id := by
    have hfields := congrArg Response.body hresponse
    simp only [ChatService.created] at hfields
    simpa using hfields
  obtain ⟨rfl, rfl⟩ := hbody
  exact ⟨n₀, j, m, rows, hflight, hall, hmem (.inr rfl)⟩

end SocialNetwork.Platform

import SocialNetwork.Platform.CreationTheorems

/-!
# Where the rows come from

At every moment of a run, each row of the database was there at the start or was asked for by a
request that arrived before, with its contents: a user and a profile by a registration, everything
else by a request with the token.
-/

namespace SocialNetwork.Platform

open ChatService (CppError Response)

variable {ilike : String → String → Bool} {db : Db} {as : List Action} {s : State} {n : Nat}

/-- The request asked for the row. -/
def AskedFor (db : Db) : Request → Row → Prop
  | .users r, .user u => ∃ p, r.post? = some p ∧
      UserService.Db.Stores u p.login p.email p.password_hash
  | .users r, .profile q => ∃ p, r.post? = some p ∧
      UserService.Db.StoresNames q p.first_name p.last_name ∧ UserStored db p q.user_id
  | .posts r, .post row => r.authorization = "Bearer 123" ∧ r.post? = some ⟨row.author_id, row.content⟩
  | .messages r, .chat c => r.authorization = "Bearer 123" ∧ r.post?.isSome ∧
      c.title = "private-chat" ∧ c.is_group = false
  | .messages r, .member m => r.authorization = "Bearer 123" ∧ ∃ p, r.post? = some p ∧
      (m.user_id = p.from_ ∨ m.user_id = p.to_) ∧ ChatStored db p m.chat_id
  | .messages r, .message m => r.authorization = "Bearer 123" ∧ ∃ p, r.post? = some p ∧
      m.sender_id = p.from_ ∧ m.content = p.text ∧ ChatStored db p m.chat_id
  | _, _ => False

theorem AskedFor.mono {db db' : Db} {l : Request} {row : Row} (h : AskedFor db l row)
    (hkeep : ∀ row ∈ db.rows, row ∈ db'.rows) : AskedFor db' l row := by
  cases l with
  | auth method => exact h
  | users r =>
    cases row with
    | profile q =>
      obtain ⟨p, hp, hnames, hstored⟩ := h
      exact ⟨p, hp, hnames, hstored.mono hkeep⟩
    | _ => exact h
  | posts r => cases row <;> exact h
  | messages r =>
    cases row with
    | member m =>
      obtain ⟨hauth, p, hp, huser, hstored⟩ := h
      exact ⟨hauth, p, hp, huser, hstored.mono hkeep⟩
    | message m =>
      obtain ⟨hauth, p, hp, hsender, hcontent, hstored⟩ := h
      exact ⟨hauth, p, hp, hsender, hcontent, hstored.mono hkeep⟩
    | _ => exact h

/-- A message is posted with the token. -/
theorem authorization_of_post {r : ChatService.Request} (h : r.post?.isSome) :
    r.authorization = "Bearer 123" := by
  obtain ⟨p, hp⟩ := Option.isSome_iff_exists.mp h
  unfold ChatService.Request.post? at hp
  split_ifs at hp with hauth
  exact hauth.1

section Adds

variable {ω : Choice} {db' : Db} {row : Row}

theorem adds_users {r : UserService.Request} {g : UserService.Phase} {c : UserService.SqlCall}
    {x : Except CppError c.Answer} (hok : (UserService.monitor r).ok g c)
    (h : Holds (.users r) (.users g) db') {new : List Row} (hadded : Added (.users c) x new)
    (hrow : row ∈ new) : AskedFor db' (.users r) row := by
  cases c with
  | insertUser username email password_hash =>
    obtain ⟨rfl, p, hp, rfl, rfl, rfl⟩ := hok
    cases x with
    | error e =>
      obtain rfl : new = [] := hadded
      exact absurd hrow List.not_mem_nil
    | ok user_id =>
      obtain ⟨u, -, hstores, rfl⟩ := hadded
      rw [List.mem_singleton.mp hrow]
      exact ⟨p, hp, hstores⟩
  | insertProfile user_id first_name last_name =>
    obtain ⟨rfl, p, hp, rfl, rfl⟩ := hok
    cases x with
    | error e =>
      obtain rfl : new = [] := hadded
      exact absurd hrow List.not_mem_nil
    | ok _ =>
      obtain ⟨q, rfl, hnames, rfl⟩ := hadded
      rw [List.mem_singleton.mp hrow]
      -- the profile belongs to the user that this registration has added
      exact ⟨p, hp, hnames, h p hp⟩
  | selectUsers login name =>
    have hnil : new = [] := by cases x <;> exact hadded
    rw [hnil] at hrow
    exact absurd hrow List.not_mem_nil

theorem adds_posts {r : WallService.Request} {g : WallService.Phase} {c : WallService.SqlCall}
    {x : Except CppError c.Answer} (hok : (WallService.monitor r).ok g c) {new : List Row}
    (hadded : Added (.posts c) x new) (hrow : row ∈ new) : AskedFor db' (.posts r) row := by
  obtain ⟨hauth, hok⟩ := hok
  cases c with
  | insertPost author_id content =>
    obtain ⟨rfl, p, hp, rfl, rfl⟩ := hok
    cases x with
    | error e =>
      obtain rfl : new = [] := hadded
      exact absurd hrow List.not_mem_nil
    | ok post_id =>
      obtain ⟨now, rfl⟩ := hadded
      rw [List.mem_singleton.mp hrow]
      exact ⟨hauth, hp⟩
  | _ =>
    have hnil : new = [] := by cases x <;> exact hadded
    rw [hnil] at hrow
    exact absurd hrow List.not_mem_nil

theorem adds_messages {r : ChatService.Request} {g : ChatService.Phase} {c : ChatService.SqlCall}
    {x : Except CppError c.Answer} (hok : (ChatService.monitor r).ok g c)
    (h : Holds (.messages r) (.messages (ChatService.Phase.after c x)) db') {new : List Row}
    (hadded : Added (.messages c) x new) (hrow : row ∈ new) : AskedFor db' (.messages r) row := by
  have hnone : new ≠ [] := List.ne_nil_of_mem hrow
  cases x with
  | error e => exact absurd (by cases c <;> exact hadded) hnone
  | ok a =>
    cases c with
    | insertChat title =>
      obtain ⟨-, rfl, hpost⟩ := hok
      obtain rfl : new = [.chat ⟨a, "private-chat", false⟩] := hadded
      rw [List.mem_singleton.mp hrow]
      exact ⟨authorization_of_post hpost, hpost, rfl, rfl⟩
    | insertMembers chat_id from_ to_ =>
      obtain ⟨-, p, hp, rfl, rfl⟩ := hok
      obtain rfl : new = [.member ⟨chat_id, p.from_⟩, .member ⟨chat_id, p.to_⟩] := hadded
      have hauth := authorization_of_post (by rw [hp]; rfl)
      rcases List.mem_cons.mp hrow with rfl | hrow
      · exact ⟨hauth, p, hp, .inl rfl, h p hp⟩
      · rw [List.mem_singleton.mp hrow]
        exact ⟨hauth, p, hp, .inr rfl, h p hp⟩
    -- the chat has been looked up, or created with both members
    | insertMessage chat_id sender_id content =>
      obtain ⟨-, p, hp, rfl, rfl⟩ := hok
      obtain ⟨now, rfl⟩ := hadded
      rw [List.mem_singleton.mp hrow]
      exact ⟨authorization_of_post (by rw [hp]; rfl), p, hp, rfl, rfl, (h p hp).1⟩
    | _ => exact absurd hadded hnone

/-- A statement adds what its request asked for. -/
theorem askedFor_of_added {l : Request} {g : Phase} {c : Call} {x : Except CppError c.Answer}
    (hok : g.allows l c) (h : Holds l g db) (hexec : db.execute ilike ω c = some (db', x))
    (hrow : row ∈ db'.rows) : row ∈ db.rows ∨ AskedFor db' l row := by
  obtain ⟨new, hadded, hperm⟩ := Db.execute_added hexec
  have hkept := h.mono fun row => Db.execute_keeps hexec
  refine (List.mem_append.mp (hperm.mem_iff.mp hrow)).imp_right fun hnew => ?_
  rcases Phase.allows_cases hok with ⟨r, g, c, rfl, rfl, rfl, hok⟩ |
    ⟨r, g, c, rfl, rfl, rfl, hok⟩ | ⟨r, g, c, rfl, rfl, rfl, hok⟩
  · exact adds_users hok hkept hadded hnew
  · exact adds_posts hok hadded hnew
  · exact adds_messages hok (own_messages hok h hexec) hadded hnew

end Adds

/-- The row was there at the start, or a request that arrived before the moment `n` asked for it. -/
def Sourced (db₀ : Db) (as : List Action) (n : Nat) (db : Db) (row : Row) : Prop :=
  row ∈ db₀.rows ∨ ∃ i < n, ∃ l, as[i]? = some (.request l) ∧ AskedFor db l row

theorem sourced_at {m : State} (hm : Runs.At (service ilike).step (Service.init db) as n m)
    {row : Row} (hrow : row ∈ m.shared.store.rows) : Sourced db as n m.shared.store row :=
  (assertions ilike).provenance (fun db row => row ∈ db.rows) (fun l row db => AskedFor db l row)
    (fun hok h hexec hrow => askedFor_of_added hok h hexec hrow)
    (fun hexec h => h.mono fun _ => Db.execute_keeps hexec) hm hrow

/-- **Sources.** At every moment of a run, each row of each table was there at the start, or a
request that arrived before asked for it. -/
theorem rows_sourced {m : State} (hm : Runs.At (service ilike).step (Service.init db) as n m) :
    ∀ row ∈ m.shared.store.rows, Sourced db as n m.shared.store row :=
  fun _ hrow => sourced_at hm hrow

/-- The message of the first day was asked for. -/
theorem rows_sourced_firstDay : ∃ s,
    Runs.exec (service UserService.contains).step (Service.init Db.empty) firstDay = some s ∧
    Sourced Db.empty firstDay firstDay.length s.shared.store (.message ⟨1, 1, 1, "hi", 0⟩) := by
  obtain ⟨s, hrun, -, hrow⟩ := firstDay_runs
  exact ⟨s, hrun, rows_sourced (Runs.at_length hrun) _ hrow⟩

end SocialNetwork.Platform

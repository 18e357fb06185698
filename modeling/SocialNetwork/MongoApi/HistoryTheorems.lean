import SocialNetwork.Lib.Registers
import SocialNetwork.MongoApi.RefinementTheorems

/-!
# What the network keeps

Whatever the requests do, a user keeps its login, email, password and date, a post everything but
its likes and a growing list of comments, a message everything but its mark; posts stay, and what is
gone does not come back (`history_kept`). The other fields of a user are what was last written to
them (`last_edit_wins`).
-/

namespace SocialNetwork.MongoApi

open DocStore Registers

/-! ## Later states -/

/-- The fields of a user that no request changes. -/
def User.Same (u u' : User) : Prop :=
  u'.login = u.login ∧ u'.email = u.email ∧ u'.password = u.password ∧ u'.created_at = u.created_at

/-- Comments are added to a post, and its likes change. -/
def Post.Grows (p p' : Post) : Prop :=
  ∃ likes comments, p' = { p with likes := likes, comments := p.comments ++ comments }

/-- A message may be marked as read. -/
def Message.Ages (m m' : Message) : Prop := m' = m ∨ m' = m.markRead

/-- A PATCH keeps the fields that are not its own. -/
theorem User.same_edit (data : UserUpdate) (u : User) : u.Same (u.edit data) := ⟨rfl, rfl, rfl, rfl⟩

theorem User.Same.trans {u₁ u₂ u₃ : User} (h : u₁.Same u₂) (h' : u₂.Same u₃) : u₁.Same u₃ :=
  ⟨h'.1.trans h.1, h'.2.1.trans h.2.1, h'.2.2.1.trans h.2.2.1, h'.2.2.2.trans h.2.2.2⟩

theorem Post.grows_refl (p : Post) : p.Grows p := ⟨p.likes, [], by rw [List.append_nil]⟩

theorem Post.Grows.trans {p₁ p₂ p₃ : Post} (h : p₁.Grows p₂) (h' : p₂.Grows p₃) : p₁.Grows p₃ := by
  obtain ⟨likes, comments, rfl⟩ := h
  obtain ⟨likes', comments', rfl⟩ := h'
  exact ⟨likes', comments ++ comments', by rw [← List.append_assoc]⟩

/-- A like keeps the comments. -/
theorem Post.grows_like (user : ObjectId) (p : Post) : p.Grows (p.like user) :=
  ⟨(p.like user).likes, [], by rw [List.append_nil]; rfl⟩

theorem Post.grows_unlike (user : ObjectId) (p : Post) : p.Grows (p.unlike user) :=
  ⟨(p.unlike user).likes, [], by rw [List.append_nil]; rfl⟩

/-- A comment is added behind the others. -/
theorem Post.grows_comment (c : Comment) (p : Post) : p.Grows (p.comment c) := ⟨p.likes, [c], rfl⟩

/-- A message that has been read stays read. -/
theorem Message.Ages.trans {m₁ m₂ m₃ : Message} (h : m₁.Ages m₂) (h' : m₂.Ages m₃) : m₁.Ages m₃ := by
  rcases h with rfl | rfl
  · exact h'
  · rcases h' with rfl | rfl
    · exact .inr rfl
    · exact .inr rfl

/-- The network at a later time. -/
structure Network.Later (net net' : Network) : Prop where
  issued : net.issued <+: net'.issued
  users : Evolves User.Same net.issued net.users net'.users
  posts : Evolves Post.Grows net.issued net.posts net'.posts
  stay : ∀ id, (net.posts id).isSome = true → (net'.posts id).isSome = true
  messages : Evolves Message.Ages net.issued net.messages net'.messages

namespace Network

theorem Later.refl (net : Network) : net.Later net where
  issued := List.prefix_refl _
  users := .refl (fun _ => ⟨rfl, rfl, rfl, rfl⟩) _ _
  posts := .refl Post.grows_refl _ _
  stay _ h := h
  messages := .refl (fun _ => .inl rfl) _ _

/-- What is stored has an id that has been given. -/
structure Issued (net : Network) : Prop where
  users : ∀ id u, net.users id = some u → id ∈ net.issued
  posts : ∀ id p, net.posts id = some p → id ∈ net.issued
  messages : ∀ id m, net.messages id = some m → id ∈ net.issued

/-- Every document of a database has an id that was given. -/
theorem issued_of_db (db : Db) : db.network.Issued := by
  have hlookup : ∀ c id d, db.lookup c id = some d → id ∈ db.issued := by
    intro c id d h
    obtain ⟨hd, hid⟩ := Validated.findOne_id (c := db.coll c) h
    exact Db.mem_issued hd hid
  refine ⟨fun id u h => ?_, fun id p h => ?_, fun id m h => ?_⟩
  all_goals
    obtain ⟨d, hd, -⟩ := Option.bind_eq_some_iff.mp h
    exact hlookup _ id d hd

theorem Later.trans {net₁ net₂ net₃ : Network} (h : net₁.Later net₂) (h' : net₂.Later net₃) :
    net₁.Later net₃ where
  issued := h.issued.trans h'.issued
  users := h.users.trans (fun _ _ _ => User.Same.trans) (fun _ hid => h.issued.subset hid) h'.users
  posts := h.posts.trans (fun _ _ _ => Post.Grows.trans) (fun _ hid => h.issued.subset hid) h'.posts
  stay id hpost := h'.stay id (h.stay id hpost)
  messages :=
    h.messages.trans (fun _ _ _ => Message.Ages.trans) (fun _ hid => h.issued.subset hid) h'.messages

/-- An update leaves the other names alone. -/
theorem isSome_update {α : Type} {m : ObjectId → Option α} {id : ObjectId} (x : α) (id' : ObjectId)
    (h : (m id').isSome = true) : (Function.update m id (some x) id').isSome = true := by
  by_cases hid : id' = id
  · rw [hid, Function.update_self]
    rfl
  · rw [Function.update_of_ne hid]
    exact h

section Kinds

variable (net : Network) {id : ObjectId}

/-- Only the users have changed. -/
theorem later_users {users : ObjectId → Option User} {issued : List ObjectId}
    (hissued : net.issued <+: issued) (h : Evolves User.Same net.issued net.users users) :
    net.Later { net with users := users, issued := issued } :=
  { Later.refl net with issued := hissued, users := h }

/-- Only the posts have changed, and none is gone. -/
theorem later_posts {posts : ObjectId → Option Post} {issued : List ObjectId}
    (hissued : net.issued <+: issued) (h : Evolves Post.Grows net.issued net.posts posts)
    (hstay : ∀ id, (net.posts id).isSome = true → (posts id).isSome = true) :
    net.Later { net with posts := posts, issued := issued } :=
  { Later.refl net with issued := hissued, posts := h, stay := hstay }

theorem later_messages {messages : ObjectId → Option Message} {issued : List ObjectId}
    (hissued : net.issued <+: issued) (h : Evolves Message.Ages net.issued net.messages messages) :
    net.Later { net with messages := messages, issued := issued } :=
  { Later.refl net with issued := hissued, messages := h }

/-- A post is changed in a way that lets it grow. -/
theorem later_update_post {net' : Network} {f : Post → Post} (hf : ∀ p : Post, p.Grows (f p))
    (h : ((net.posts id).map fun p =>
      { net with posts := Function.update net.posts id (some (f p)) }) = some net') :
    net.Later net' := by
  obtain ⟨p, hp, rfl⟩ := Option.map_eq_some_iff.mp h
  exact net.later_posts (List.prefix_refl _) (.update Post.grows_refl hp (hf p))
    (isSome_update (f p))

end Kinds

/-- **Steps.** -/
theorem later_step {net net' : Network} {id : ObjectId} {deed : Deed}
    (h : net.step id deed = some net') : net.Later net' := by
  have hsame : ∀ u : User, u.Same u := fun _ => ⟨rfl, rfl, rfl, rfl⟩
  have hages : ∀ m : Message, m.Ages m := fun _ => .inl rfl
  cases deed with
  | register user created_at =>
    obtain ⟨⟨hid, -⟩, h⟩ := Option.ite_none_right_eq_some.mp h
    cases h
    exact net.later_users (List.prefix_append _ _) (.insert hsame hid _)
  | edit data =>
    obtain ⟨u, hu, h⟩ := Option.bind_eq_some_iff.mp h
    obtain ⟨-, h⟩ := Option.ite_none_right_eq_some.mp h
    cases h
    exact net.later_users (List.prefix_refl _) (.update hsame hu (u.same_edit data))
  | remove =>
    obtain ⟨u, -, rfl⟩ := Option.map_eq_some_iff.mp h
    exact net.later_users (List.prefix_refl _) (.remove hsame id)
  | publish author post created_at =>
    obtain ⟨⟨hid, -⟩, h⟩ := Option.ite_none_right_eq_some.mp h
    cases h
    exact net.later_posts (List.prefix_append _ _) (.insert Post.grows_refl hid _) (isSome_update _)
  -- the deeds on posts differ only in what becomes of the document
  | like user => exact net.later_update_post (Post.grows_like user) h
  | unlike user => exact net.later_update_post (Post.grows_unlike user) h
  | comment user text created_at => exact net.later_update_post (Post.grows_comment _) h
  | send from_ to_ message created_at =>
    obtain ⟨⟨hid, -⟩, h⟩ := Option.ite_none_right_eq_some.mp h
    cases h
    exact net.later_messages (List.prefix_append _ _) (.insert hages hid _)
  | markRead =>
    obtain ⟨m, hm, rfl⟩ := Option.map_eq_some_iff.mp h
    exact net.later_messages (List.prefix_refl _) (.update hages hm (.inr rfl))
  | discard =>
    obtain ⟨m, -, rfl⟩ := Option.map_eq_some_iff.mp h
    exact net.later_messages (List.prefix_refl _) (.remove hages id)

/-- **Runs.** -/
theorem later_exec {net net' : Network} {xs : List Done}
    (h : Runs.exec perform net xs = some net') : net.Later net' :=
  Runs.exec_relation (I := fun _ => True) Later.refl (fun _ _ _ => Later.trans)
    (fun _ _ _ _ _ hstep => ⟨trivial, later_step hstep⟩) trivial
    (Runs.meets_of_forall (fun _ _ => trivial) net xs) h

end Network

/-! ## Edits -/

/-- What has been written to the user. -/
def edits (id : ObjectId) (xs : List Done) : List UserUpdate :=
  xs.filterMap fun x =>
    match x.deed with
    | .edit data => if x.id = id then some data else none
    | _ => none

/-- The last value that was written, or the one before all of them. -/
def lastOr {α β : Type} (field : β → Option α) (bs : List β) (a : α) : α :=
  ((bs.filterMap field).getLast?).getD a

namespace Network

/-- A deed writes to the user if it is an edit of that user. -/
theorem step_user {net net' : Network} {x : Done} {id : ObjectId} {u u' : User}
    (h : net.perform x = some net') (hu : net.users id = some u) (hu' : net'.users id = some u') :
    u' = (edits id [x]).foldl (fun u data => u.edit data) u := by
  obtain ⟨request, id', deed⟩ := x
  -- a deed on another user, or on none
  have hother : ∀ users : ObjectId → Option User, users id = net.users id → users id = some u' →
      edits id [⟨request, id', deed⟩] = [] →
        u' = (edits id [⟨request, id', deed⟩]).foldl (fun u data => u.edit data) u := by
    intro users hsame hafter hedits
    rw [hedits]
    rw [hsame, hu] at hafter
    exact (Option.some.inj hafter).symm
  cases deed with
  | register user created_at =>
    obtain ⟨⟨-, hnone, -⟩, h⟩ := Option.ite_none_right_eq_some.mp h
    cases h
    have hid : id ≠ id' := by
      rintro rfl
      exact absurd (hu.symm.trans hnone) nofun
    exact hother _ (Function.update_of_ne hid _ _) hu' rfl
  | edit data =>
    obtain ⟨u₀, hu₀, h⟩ := Option.bind_eq_some_iff.mp h
    obtain ⟨-, h⟩ := Option.ite_none_right_eq_some.mp h
    cases h
    by_cases hid : id' = id
    · subst hid
      have hedits : edits id' [⟨request, id', .edit data⟩] = [data] := by
        simp [edits]
      rw [hu] at hu₀
      cases hu₀
      rw [hedits]
      dsimp only at hu'
      rw [Function.update_self] at hu'
      exact (Option.some.inj hu').symm
    · refine hother _ (Function.update_of_ne (Ne.symm hid) _ _) hu' ?_
      simp [edits, hid]
  | remove =>
    obtain ⟨_, -, rfl⟩ := Option.map_eq_some_iff.mp h
    by_cases hid : id = id'
    · subst hid
      dsimp only at hu'
      rw [Function.update_self] at hu'
      cases hu'
    · exact hother _ (Function.update_of_ne hid _ _) hu' rfl
  | publish author post created_at =>
    obtain ⟨-, h⟩ := Option.ite_none_right_eq_some.mp h
    cases h
    exact hother _ rfl hu' rfl
  | send from_ to_ message created_at =>
    obtain ⟨-, h⟩ := Option.ite_none_right_eq_some.mp h
    cases h
    exact hother _ rfl hu' rfl
  | _ =>
    obtain ⟨_, -, rfl⟩ := Option.map_eq_some_iff.mp h
    exact hother _ rfl hu' rfl

theorem edits_append (id : ObjectId) (xs ys : List Done) :
    edits id (xs ++ ys) = edits id xs ++ edits id ys := List.filterMap_append

/-- A user that is still there is the one that was there, with what has been written to it. -/
theorem user_exec {net net' : Network} {xs : List Done} {id : ObjectId} {u u' : User}
    (h : Runs.exec perform net xs = some net') (hid : id ∈ net.issued) (hu : net.users id = some u)
    (hu' : net'.users id = some u') : u' = (edits id xs).foldl (fun u data => u.edit data) u := by
  induction xs generalizing net u with
  | nil =>
    cases h
    rw [hu] at hu'
    exact (Option.some.inj hu').symm
  | cons x xs ih =>
    obtain ⟨m, hm, hrest⟩ := Runs.exec_cons_eq_some.mp h
    have hissued : id ∈ m.issued := (later_step hm).issued.subset hid
    rw [show x :: xs = [x] ++ xs from rfl, edits_append, List.foldl_append]
    cases hum : m.users id with
    | none =>
      rw [(later_exec hrest).users.eq_none hissued hum] at hu'
      cases hu'
    | some um =>
      rw [← step_user hm hu hum]
      exact ih hrest hissued hum

end Network

/-! ## Runs of the requests -/

section Runs

variable {db : Db} {before after : List Action} {m s : State}

/-- What happens between two moments of a run. -/
theorem network_between [Bson] (hbefore : Runs.exec step (State.init db) before = some m)
    (hafter : Runs.exec step m after = some s) :
    Runs.exec Network.perform m.shared.db.network (ledger m after) = some s.shared.db.network := by
  have hrun : Runs.exec step (State.init db) (before ++ after) = some s := by
    rw [Runs.exec_append, hbefore]
    exact hafter
  have hnetwork := (network_exec hrun).1
  rw [ledger, Runs.outputs_append hbefore, Runs.exec_append] at hnetwork
  obtain ⟨net, hnet, hrest⟩ := Option.bind_eq_some_iff.mp hnetwork
  rw [(network_exec hbefore).1.symm.trans hnet |> Option.some.inj]
  exact hrest

/-- **History.** At any moment of any run what is stored has an id that has been given, and until any
later moment nothing changes but what `Network.Later` allows. -/
theorem history_kept [Bson] (hbefore : Runs.exec step (State.init db) before = some m)
    (hafter : Runs.exec step m after = some s) :
    m.shared.db.network.Issued ∧ m.shared.db.network.Later s.shared.db.network :=
  ⟨Network.issued_of_db m.shared.db, Network.later_exec (network_between hbefore hafter)⟩

open scoped Hex

/-- Bob is renamed by two requests; the second one writes first. -/
def renameTwice : List Action :=
  [.request (.update_user "000000000000000000000000" ⟨some "Rob", none, none, none⟩),
    .request (.update_user "000000000000000000000000" ⟨some "Bert", none, some 31, none⟩),
    .call 1 (.ok first), .call 0 (.ok first)]

def bob : User := .new newUser 0

theorem renameTwice_runs : ∃ m s, Runs.exec step (State.init Db.empty) createWhileListing = some m ∧
    Runs.exec step m renameTwice = some s ∧ m.shared.db.network.users (.ofNat 0) = some bob ∧
    s.shared.db.network.users (.ofNat 0) = some { bob with first_name := "Rob", age := some 31 } := by
  have hresult : (Runs.exec step (State.init Db.empty) createWhileListing).map (fun m =>
      (m.shared.db.network.users (.ofNat 0), (Runs.exec step m renameTwice).map
        fun s => s.shared.db.network.users (.ofNat 0))) =
      some (some bob, some (some { bob with first_name := "Rob", age := some 31 })) := by
    decide +kernel
  obtain ⟨m, hm, h⟩ := Option.map_eq_some_iff.mp hresult
  obtain ⟨hbob, hafter⟩ := Prod.mk.inj h
  obtain ⟨s, hs, hrob⟩ := Option.map_eq_some_iff.mp hafter
  exact ⟨m, s, hm, hs, hbob, hrob⟩

theorem history_kept_renamed : ∃ m s, Runs.exec step (State.init Db.empty) createWhileListing = some m ∧
    Runs.exec step m renameTwice = some s ∧ .ofNat 0 ∈ m.shared.db.issued ∧
    m.shared.db.network.Later s.shared.db.network := by
  obtain ⟨m, s, hm, hs, hbob, -⟩ := renameTwice_runs
  obtain ⟨hissued, hlater⟩ := history_kept hm hs
  exact ⟨m, s, hm, hs, hissued.users _ _ hbob, hlater⟩

/-- **Last edit wins.** A user that is there at two moments of a run has in every field what the last
edit between them that has the field wrote there, and no other edit has touched it. -/
theorem last_edit_wins [Bson] (hbefore : Runs.exec step (State.init db) before = some m)
    (hafter : Runs.exec step m after = some s) {id : ObjectId} {u u' : User}
    (hu : m.shared.db.network.users id = some u)
    (hu' : s.shared.db.network.users id = some u') :
    u' = { u with
      first_name := lastOr UserUpdate.first_name (edits id (ledger m after)) u.first_name
      last_name := lastOr UserUpdate.last_name (edits id (ledger m after)) u.last_name
      age := lastOr (fun data => data.age.map some) (edits id (ledger m after)) u.age
      interests :=
        lastOr (fun data => data.interests.map some) (edits id (ledger m after)) u.interests } := by
  have hnetwork := network_between hbefore hafter
  have hid := (Network.issued_of_db m.shared.db).users id u hu
  obtain ⟨hlogin, hemail, hpassword, hcreated_at⟩ :=
    (Network.later_exec hnetwork).users.rel hid hu hu'
  have hfold := Network.user_exec hnetwork hid hu hu'
  -- an absent age or interests leaves the old value
  have hor : ∀ {α : Type} (new old : Option α), new.or old = (new.map some).getD old := by
    intro α new old
    cases new <;> rfl
  have hfirst_name : u'.first_name =
      lastOr UserUpdate.first_name (edits id (ledger m after)) u.first_name := by
    rw [hfold]
    exact foldl_field User.first_name _ _ (fun _ _ => rfl) u _
  have hlast_name : u'.last_name =
      lastOr UserUpdate.last_name (edits id (ledger m after)) u.last_name := by
    rw [hfold]
    exact foldl_field User.last_name _ _ (fun _ _ => rfl) u _
  have hage : u'.age =
      lastOr (fun data => data.age.map some) (edits id (ledger m after)) u.age := by
    rw [hfold]
    exact foldl_field User.age _ _ (fun u data => hor data.age u.age) u _
  have hinterests : u'.interests =
      lastOr (fun data => data.interests.map some) (edits id (ledger m after)) u.interests := by
    rw [hfold]
    exact foldl_field User.interests _ _ (fun u data => hor data.interests u.interests) u _
  rw [← hfirst_name, ← hlast_name, ← hage, ← hinterests, ← hlogin, ← hemail, ← hpassword,
    ← hcreated_at]

theorem last_edit_wins_renamed : ∃ (m s : State) (u u' : User),
    m.shared.db.network.users (.ofNat 0) = some u ∧
    s.shared.db.network.users (.ofNat 0) = some u' ∧
    u'.first_name = lastOr UserUpdate.first_name (edits (.ofNat 0) (ledger m renameTwice)) "Bob" ∧
    u'.first_name = "Rob" := by
  obtain ⟨m, s, hm, hs, hbob, hrob⟩ := renameTwice_runs
  refine ⟨m, s, _, _, hbob, hrob, ?_, rfl⟩
  exact congrArg User.first_name (last_edit_wins hm hs hbob hrob)

end Runs

end SocialNetwork.MongoApi

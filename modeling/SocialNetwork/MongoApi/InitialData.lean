import SocialNetwork.MongoApi.Protocol

/-!
# The first documents (`mongo/mongo-init.js`)

The script inserts ten users, ten posts and ten messages. The `n`-th call of `new Date()` in it is
`date n`, and `ids` are the ids that Mongo gives out.
-/

namespace SocialNetwork.MongoApi

open DocStore

/-! ## Documents -/

def initUser (login email first_name last_name : String) (age : Int) (interests : List String)
    (created_at : Nat) : Doc :=
  [("login", .str login), ("email", .str email), ("password", .str "123456"),
    ("first_name", .str first_name), ("last_name", .str last_name), ("age", .int age),
    ("interests", strings interests), ("created_at", .date created_at)]

/-- The users of the script, in its order. -/
def initUsers (date : Nat → Nat) : List Doc :=
  [initUser "alice" "alice@test.com" "Alice" "Smith" 25 ["music", "books"] (date 0),
    initUser "bob" "bob@test.com" "Bob" "Johnson" 30 ["sports"] (date 1),
    initUser "carol" "carol@test.com" "Carol" "Brown" 28 ["movies"] (date 2),
    initUser "dave" "dave@test.com" "Dave" "White" 35 ["travel"] (date 3),
    initUser "eva" "eva@test.com" "Eva" "Black" 22 ["art"] (date 4),
    initUser "frank" "frank@test.com" "Frank" "Green" 40 ["cars"] (date 5),
    initUser "grace" "grace@test.com" "Grace" "Hall" 27 ["fashion"] (date 6),
    initUser "henry" "henry@test.com" "Henry" "King" 31 ["tech"] (date 7),
    initUser "irene" "irene@test.com" "Irene" "Moore" 29 ["fitness"] (date 8),
    initUser "jack" "jack@test.com" "Jack" "Lee" 33 ["gaming"] (date 9)]

def initPost (author_id : ObjectId) (content : String) (tags : List String) (likes : List ObjectId)
    (comments : List Value) (created_at : Nat) : Doc :=
  [("author_id", .oid author_id), ("content", .str content), ("tags", strings tags),
    ("likes", .arr (likes.map .oid)), ("comments", .arr comments), ("created_at", .date created_at)]

/-- The posts of the script, by the users it has inserted. -/
def initPosts (userIds : Nat → ObjectId) (date : Nat → Nat) : List Doc :=
  [initPost (userIds 0) "Hello world" ["intro"] [userIds 1, userIds 2]
      [commentOf (userIds 1) "Nice post!" (date 10)] (date 11),
    initPost (userIds 1) "Another post" ["random"] [] [] (date 12),
    initPost (userIds 2) "MongoDB is cool" ["db", "mongo"] [userIds 0] [] (date 13),
    initPost (userIds 3) "Travel blog" ["travel"] [] [] (date 14),
    initPost (userIds 4) "Art post" ["art"] [] [] (date 15),
    initPost (userIds 5) "Cars review" ["cars"] [] [] (date 16),
    initPost (userIds 6) "Fashion trends" ["fashion"] [] [] (date 17),
    initPost (userIds 7) "Tech news" ["tech"] [] [] (date 18),
    initPost (userIds 8) "Fitness tips" ["fitness"] [] [] (date 19),
    initPost (userIds 9) "Gaming post" ["gaming"] [] [] (date 20)]

def initMessage (from_user_id to_user_id : ObjectId) (text : String) (is_read : Bool)
    (created_at : Nat) : Doc :=
  [("from_user_id", .oid from_user_id), ("to_user_id", .oid to_user_id), ("text", .str text),
    ("is_read", .bool is_read), ("created_at", .date created_at)]

/-- The messages of the script, between the users it has inserted. -/
def initMessages (userIds : Nat → ObjectId) (date : Nat → Nat) : List Doc :=
  [initMessage (userIds 0) (userIds 1) "Hello!" false (date 21),
    initMessage (userIds 1) (userIds 0) "Hi!" true (date 22),
    initMessage (userIds 2) (userIds 3) "Hey" false (date 23),
    initMessage (userIds 3) (userIds 4) "Yo" false (date 24),
    initMessage (userIds 4) (userIds 5) "Hi there" false (date 25),
    initMessage (userIds 5) (userIds 6) "Test" false (date 26),
    initMessage (userIds 6) (userIds 7) "Message" false (date 27),
    initMessage (userIds 7) (userIds 8) "Ping" false (date 28),
    initMessage (userIds 8) (userIds 9) "Pong" false (date 29),
    initMessage (userIds 9) (userIds 0) "Last message" false (date 30)]

/-! ## The script -/

/-- `insertMany`: the `i`-th document gets the `i`-th id. -/
def Db.insertMany (db : Db) (coll : Coll) (ids : Nat → ObjectId) (docs : List Doc) : Option Db :=
  docs.zipIdx.foldlM (fun db x => db.insert_one coll (ids x.2) x.1) db

/-- The script as a whole; it stops at a document that is refused. -/
def mongo_init (ids : Coll → Nat → ObjectId) (date : Nat → Nat) : Option Db := do
  let db ← Db.empty.insertMany .users (ids .users) (initUsers date)
  let db ← db.insertMany .posts (ids .posts) (initPosts (ids .users) date)
  db.insertMany .messages (ids .messages) (initMessages (ids .users) date)

/-! ## What is true of the documents -/

/-- A document was there, or is one of those inserted. -/
theorem mem_insertMany {db db' : Db} {coll : Coll} {ids : Nat → ObjectId} {docs : List Doc}
    (h : db.insertMany coll ids docs = some db') {c : Coll} {d : Doc} (hd : d ∈ db'.docs c) :
    d ∈ db.docs c ∨ c = coll ∧ ∃ id, ∃ doc ∈ docs, d = ("_id", .oid id) :: doc := by
  have hfold : ∀ (xs : List (Doc × Nat)) (db : Db), (∀ x ∈ xs, x.1 ∈ docs) →
      xs.foldlM (fun db x => db.insert_one coll (ids x.2) x.1) db = some db' →
      d ∈ db.docs c ∨ c = coll ∧ ∃ id, ∃ doc ∈ docs, d = ("_id", .oid id) :: doc := by
    intro xs
    induction xs with
    | nil =>
      intro db _ hdb
      rw [List.foldlM_nil] at hdb
      rw [Option.some.inj hdb]
      exact .inl hd
    | cons x xs ih =>
      intro db hxs hdb
      rw [List.foldlM_cons] at hdb
      obtain ⟨db₁, hinsert, hrest⟩ := Option.bind_eq_some_iff.mp hdb
      rw [List.forall_mem_cons] at hxs
      rcases ih db₁ hxs.2 hrest with hmem | hnew
      · rcases Db.mem_insert_one hinsert hmem with hmem | ⟨rfl, rfl⟩
        · exact .inl hmem
        · exact .inr ⟨rfl, _, x.1, hxs.1, rfl⟩
      · exact .inr hnew
  exact hfold docs.zipIdx db (fun x hx => List.fst_mem_of_mem_zipIdx hx) h

/-- What holds of all documents of the forms in the script holds of what it inserts. -/
theorem forall_docs_init {P : Coll → Doc → Prop}
    (husers : ∀ id login email first_name last_name age interests created_at, P .users
      (("_id", .oid id) :: initUser login email first_name last_name age interests created_at))
    (hposts : ∀ id author content tags likes created_at comments,
      (∀ x ∈ comments, ∃ user text created_at, x = commentOf user text created_at) → P .posts
        (("_id", .oid id) :: initPost author content tags likes comments created_at))
    (hmessages : ∀ id from_ to_ text is_read created_at, P .messages
      (("_id", .oid id) :: initMessage from_ to_ text is_read created_at))
    {ids : Coll → Nat → ObjectId} {date : Nat → Nat} {db : Db} (h : mongo_init ids date = some db) :
    ∀ c, ∀ d ∈ db.docs c, P c d := by
  obtain ⟨db₁, hdb₁, h⟩ := Option.bind_eq_some_iff.mp h
  obtain ⟨db₂, hdb₂, hdb⟩ := Option.bind_eq_some_iff.mp h
  intro c d hd
  rcases mem_insertMany hdb hd with hd | ⟨rfl, id, doc, hdoc, rfl⟩
  · rcases mem_insertMany hdb₂ hd with hd | ⟨rfl, id, doc, hdoc, rfl⟩
    · rcases mem_insertMany hdb₁ hd with hd | ⟨rfl, id, doc, hdoc, rfl⟩
      · cases c <;> cases hd
      · revert hdoc
        simp only [initUsers, List.mem_cons, List.not_mem_nil, or_false]
        rintro (rfl | rfl | rfl | rfl | rfl | rfl | rfl | rfl | rfl | rfl) <;> apply husers
    · -- only the first post has a comment
      have hone : ∀ x ∈ [commentOf (ids .users 1) "Nice post!" (date 10)],
          ∃ user text created_at, x = commentOf user text created_at := by
        intro x hx
        exact ⟨_, _, _, List.mem_singleton.mp hx⟩
      revert hdoc
      simp only [initPosts, List.mem_cons, List.not_mem_nil, or_false]
      rintro (rfl | rfl | rfl | rfl | rfl | rfl | rfl | rfl | rfl | rfl)
      · exact hposts _ _ _ _ _ _ _ hone
      all_goals exact hposts _ _ _ _ _ _ _ nofun
  · revert hdoc
    simp only [initMessages, List.mem_cons, List.not_mem_nil, or_false]
    rintro (rfl | rfl | rfl | rfl | rfl | rfl | rfl | rfl | rfl | rfl) <;> apply hmessages

/-- The script succeeds where the ids are new. -/
def firstIds (coll : Coll) (n : Nat) : ObjectId :=
  match coll with
  | .users => .ofNat n
  | .posts => .ofNat (16 + n)
  | .messages => .ofNat (32 + n)

example : ((mongo_init firstIds fun n => n).map fun db => (db.docs .posts).length) = some 10 := by
  decide +kernel

end SocialNetwork.MongoApi

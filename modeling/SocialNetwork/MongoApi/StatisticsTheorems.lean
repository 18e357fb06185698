import SocialNetwork.MongoApi.CacheKeyTheorems
import SocialNetwork.MongoApi.Dependence

/-!
# The statistics of posts

What `GET /stats/posts-by-users` answers without the cache: one row for each user with a post that
has content. Its numbers are those of the user's posts in `GET /posts`, which is another query on
the same collection, and one that fails where the date of a post cannot be read.
-/

namespace SocialNetwork.MongoApi

open DocStore

variable {db : Db}

/-! ## What should be answered -/

/-- The posts of a list that have content. -/
def withContent (posts : List Doc) : List Doc :=
  posts.filter fun d => d.get "content" ≠ some (.str "")

/-- How many likes the posts have together. -/
def likesOf (posts : List Doc) : Nat := (posts.map fun d => (d.entries "likes").length).sum

/-- The user has a post with content. -/
def isActive (db : Db) (user : Doc) : Bool :=
  (withContent (db.docs .posts)).any fun d => d.get "author_id" = user.get "_id"

section

variable [Bson]

/-- The rows are what the query of the request returns, if it does return rows. -/
def Choice.Possible (ω : Choice) (r : Request) (db : Db) : Prop :=
  ∀ q, r.query? = some q → q.error? db = none → q.Returns db ω.rows

/-- `GET /posts?author_id=…`. -/
def postsBy (id : ObjectId) : Request := .get_posts (some id.hex) none

/-- `GET /posts` lists so many posts with content of a user, with so many likes, whatever the order. -/
def ListedWith (db : Db) (id : ObjectId) (posts_count likes_count : Nat) : Prop :=
  (∃ ω : Choice, ω.Possible (postsBy id) db) ∧
    ∀ ω : Choice, ω.Possible (postsBy id) db →
      ∃ posts, respond ω (postsBy id) db = .ok (missReply posts) ∧
        posts_count = (withContent posts).length ∧ likes_count = likesOf (withContent posts)

/-- The row of a user, by the posts of the user, which `GET /posts` lists if they can be read. -/
def IsRowOf (db : Db) (user row : Doc) : Prop :=
  ∃ (id : ObjectId) (login : Value) (posts_count likes_count : Nat),
    user.get "_id" = some (.oid id) ∧ user.get "login" = some login ∧
    row = [("posts_count", .int posts_count), ("likes_count", .int likes_count),
      ("user_id", .str id.hex), ("login", login)] ∧
    posts_count = (withContent (postsOf (some id) none db)).length ∧
    likes_count = likesOf (withContent (postsOf (some id) none db)) ∧
    (Readable (postsOf (some id) none db) → ListedWith db id posts_count likes_count)

end

/-! ## The pipeline -/

/-- The author of a post. -/
def authorOf (d : Doc) : Value := (d.get "author_id").getD .null

theorem post_author {d : Doc} (hd : d ∈ db.docs .posts) : ∃ id, d.get "author_id" = some (.oid id) := by
  obtain ⟨v, hv, hholds⟩ := Db.post_field hd (f := "author_id") (s := .objectId) (by decide) (by simp)
  obtain ⟨id, rfl⟩ := Schema.holds_objectId hholds
  exact ⟨id, hv⟩

theorem post_content {d : Doc} (hd : d ∈ db.docs .posts) : ∃ s, d.get "content" = some (.str s) := by
  obtain ⟨v, hv, hholds⟩ := Db.post_field hd (f := "content") (s := .text) (by decide) (by simp)
  cases v with
  | str s => exact ⟨s, hv⟩
  | _ => cases hholds

theorem user_login {d : Doc} (hd : d ∈ db.docs .users) : ∃ s, d.get "login" = some (.str s) := by
  obtain ⟨v, hv, hholds⟩ := Schema.exists_of_required (f := "login") (s := .string loginPattern)
    (db.users.valid d hd) (by decide) (by simp)
  cases v with
  | str s => exact ⟨s, hv⟩
  | _ => cases hholds

/-- `$match` selects the posts with content. -/
theorem find_content :
    DocStore.find (.all [.ne "content" (.str "")]) (db.docs .posts) = withContent (db.docs .posts) := by
  apply List.filter_congr
  intro d hd
  obtain ⟨s, hs⟩ := post_content hd
  show (!fieldEq (d.get "content") (.str "") && true) = _
  rw [hs, fieldEq_str, Bool.and_true]
  simp

/-- The sums of `$group`. -/
def sums : List (String × (Doc → Option Value)) :=
  [("posts_count", fun _ => some (.int 1)),
    ("likes_count", fun d => some (.int (d.entries "likes").length))]

theorem groups_eq : Stage.runGroup (.field ["author_id"])
    [("posts_count", .int 1), ("likes_count", .size (.field ["likes"]))]
      (withContent (db.docs .posts)) =
    .ok ((firsts ((withContent (db.docs .posts)).map authorOf)).map fun k =>
      groupRow sums k ((withContent (db.docs .posts)).filter fun d => authorOf d = k)) := by
  apply Stage.runGroup_eq
  · intro d hd
    obtain ⟨id, hid⟩ := post_author (List.mem_of_mem_filter hd)
    show Except.ok (d.get "author_id") = _
    rw [authorOf, hid]
    rfl
  · refine .cons ⟨rfl, fun d _ => rfl⟩ (.cons ⟨rfl, fun d hd => ?_⟩ .nil)
    obtain ⟨likes, hlikes, -⟩ := Db.post_likes (List.mem_of_mem_filter hd)
    have hat : d.at? ["likes"] = some (.arr likes) := hlikes
    simp only [Expr.eval, hat, Doc.entries, hlikes]
    rfl

/-- The numbers of a group. -/
theorem groupRow_sums (k : Value) (members : List Doc) :
    groupRow sums k members = [("_id", k), ("posts_count", .int members.length),
      ("likes_count", .int (likesOf members))] := by
  have hcount : sumInts (members.map fun _ => some (.int 1)) = members.length := by
    rw [sumInts_map, List.map_const', List.sum_replicate_int, Int.mul_one]
  have hlikes : sumInts (members.map fun d => some (.int ((d.entries "likes").length : Int))) =
      likesOf members := by
    rw [sumInts_map, likesOf, Lists.sum_map_natCast]
  show [("_id", k), ("posts_count", Value.int (sumInts (members.map fun _ => some (.int 1)))),
    ("likes_count", Value.int (sumInts (members.map fun d => some (.int (d.entries "likes").length))))] = _
  rw [hcount, hlikes]

/-- A group with its author. -/
def joinedRow (k : Value) (members : List Doc) (user : Doc) : Doc :=
  [("_id", k), ("posts_count", .int members.length), ("likes_count", .int (likesOf members)),
    ("author", .obj user)]

/-- The digits of an id. -/
def hexOf : Value → String
  | .oid id => id.hex
  | _ => ""

/-- The row of a user and the posts. -/
def statsRow (user : Doc) (posts : List Doc) : Doc :=
  [("posts_count", .int posts.length), ("likes_count", .int (likesOf posts)),
    ("user_id", .str (hexOf ((user.get "_id").getD .null))), ("login", (user.get "login").getD .null)]

/-- The posts with content that have an author. -/
def membersOf (db : Db) (k : Value) : List Doc :=
  (withContent (db.docs .posts)).filter fun d => authorOf d = k

/-- The users with an id: one, or none. -/
def usersWith (db : Db) (k : Value) : List Doc :=
  (db.docs .users).filter fun u => (u.get "_id").getD .null = k

theorem joined_groupRow (k : Value) :
    Stage.joined (db.docs .users) "_id" "_id" (groupRow sums k (membersOf db k)) = usersWith db k := by
  apply List.filter_congr
  intro u hu
  obtain ⟨id, hid⟩ := db.users.id u hu
  rw [hid]
  rfl

/-- `$lookup` and `$unwind` leave a group for each user with its id. -/
theorem unwound_eq (ks : List Value) :
    Stage.runUnwind "author" (Stage.runLookup (db.docs .users) "_id" "_id" "author"
      (ks.map fun k => groupRow sums k (membersOf db k))) =
    ks.flatMap fun k => (usersWith db k).map (joinedRow k (membersOf db k)) := by
  unfold Stage.runUnwind Stage.runLookup
  rw [List.map_map, List.flatMap_map]
  apply List.flatMap_congr
  intro k _
  simp only [Function.comp_apply, Doc.get_set_self, joined_groupRow, List.map_map]
  apply List.map_congr_left
  intro user _
  show Doc.set (Doc.set (groupRow sums k (membersOf db k)) "author" _) "author" (.obj user) = _
  rw [groupRow_sums]
  rfl

/-- What `$project` keeps and computes. -/
def projected (d : Doc) : Doc :=
  [("posts_count", (d.get "posts_count").getD .null),
    ("likes_count", (d.get "likes_count").getD .null),
    ("user_id", .str (hexOf ((d.get "_id").getD .null))),
    ("login", (d.at? ["author", "login"]).getD .null)]

/-- The author of a group is a user with its id. -/
theorem projected_joinedRow {k : Value} {user : Doc} (members : List Doc)
    (huser : user ∈ usersWith db k) :
    projected (joinedRow k members user) = statsRow user members := by
  have hid : (user.get "_id").getD .null = k := of_decide_eq_true (List.mem_filter.mp huser).2
  show [("posts_count", Value.int members.length), ("likes_count", Value.int (likesOf members)),
    ("user_id", .str (hexOf k)), ("login", (user.get "login").getD .null)] = _
  rw [← hid]
  rfl

theorem runProject_eq {docs : List Doc} (h : ∀ d ∈ docs, ∃ k members, ∃ user ∈ usersWith db k,
    d = joinedRow k members user) :
    Stage.runProject ["posts_count", "likes_count"]
      [("user_id", .toString (.field ["_id"])), ("login", .field ["author", "login"])] docs =
      .ok (docs.map projected) := by
  apply Fallible.mapM_eq_ok
  intro d hd
  obtain ⟨k, members, user, huser, rfl⟩ := h d hd
  obtain ⟨id, hid⟩ := db.users.id user (List.mem_of_mem_filter huser)
  obtain ⟨login, hlogin⟩ := user_login (List.mem_of_mem_filter huser)
  have hk : k = .oid id := by
    have hget : (user.get "_id").getD .null = k := of_decide_eq_true (List.mem_filter.mp huser).2
    rw [← hget, hid]
    rfl
  have hat : (joinedRow k members user).at? ["author", "login"] = some (.str login) := hlogin
  have hid' : (joinedRow k members user).at? ["_id"] = some (.oid id) := by
    rw [hk]
    rfl
  simp only [List.mapM_cons, List.mapM_nil, Expr.eval, hat, hid']
  rw [projected_joinedRow members huser]
  unfold statsRow
  rw [hid, hlogin]
  rfl

/-- **The pipeline.** There is a row for each user whose id is the author of a post with content. -/
theorem pipeline_eq : pipeline.run db.docs (db.docs .posts) =
    .ok ((firsts ((withContent (db.docs .posts)).map authorOf)).flatMap fun k =>
      (usersWith db k).map fun user => statsRow user (membersOf db k)) := by
  rw [pipeline_run, find_content, groups_eq]
  show Stage.runProject _ _ (Stage.runUnwind "author" (Stage.runLookup (db.docs .users) "_id" "_id"
    "author" ((firsts _).map fun k => groupRow sums k (membersOf db k)))) = _
  have hrows : ∀ d ∈ (firsts ((withContent (db.docs .posts)).map authorOf)).flatMap fun k =>
      (usersWith db k).map (joinedRow k (membersOf db k)),
      ∃ k members, ∃ user ∈ usersWith db k, d = joinedRow k members user := by
    intro d hd
    obtain ⟨k, -, hk⟩ := List.mem_flatMap.mp hd
    obtain ⟨user, huser, rfl⟩ := List.mem_map.mp hk
    exact ⟨k, _, user, huser, rfl⟩
  rw [unwound_eq, runProject_eq hrows, List.map_flatMap]
  congr 1
  apply List.flatMap_congr
  intro k _
  rw [List.map_map]
  apply List.map_congr_left
  intro user huser
  exact projected_joinedRow _ huser

/-- The posts of a user. -/
def contentOf (db : Db) (user : Doc) : List Doc := membersOf db ((user.get "_id").getD .null)

/-- The users with posts, one row for each. -/
theorem pipeline_perm (db : Db) : ∃ out, pipeline.run db.docs (db.docs .posts) = .ok out ∧
    out.Perm (((db.docs .users).filter (isActive db)).map fun user =>
      statsRow user (contentOf db user)) := by
  refine ⟨_, pipeline_eq, ?_⟩
  have hkeys : ∀ user ∈ db.docs .users,
      decide ((user.get "_id").getD .null ∈ firsts ((withContent (db.docs .posts)).map authorOf)) =
        isActive db user := by
    intro user huser
    obtain ⟨id, hid⟩ := db.users.id user huser
    rw [Bool.eq_iff_iff, decide_eq_true_eq, mem_firsts, List.mem_map, isActive, List.any_eq_true]
    apply exists_congr
    intro d
    apply and_congr_right
    intro hd
    obtain ⟨author, hauthor⟩ := post_author (List.mem_of_mem_filter hd)
    rw [authorOf, hauthor, hid, decide_eq_true_eq, Option.getD_some, Option.getD_some,
      Option.some.injEq]
  have hrow : ∀ k, ((usersWith db k).map fun user => statsRow user (membersOf db k)) =
      (usersWith db k).map fun user => statsRow user (contentOf db user) := by
    intro k
    apply List.map_congr_left
    intro user huser
    have hid : (user.get "_id").getD .null = k := of_decide_eq_true (List.mem_filter.mp huser).2
    rw [contentOf, hid]
  simp only [hrow]
  rw [← List.map_flatMap, ← List.filter_congr hkeys]
  -- no user is listed for two keys, and none is left out
  exact (Lists.perm_flatMap_filter _ _ (nodup_firsts _)).map _

/-- A row of the statistics has no dates. -/
theorem statsRow_decodable {user : Doc} (h : user ∈ db.docs .users) (posts : List Doc) :
    (Value.obj (statsRow user posts)).decodable = true := by
  obtain ⟨login, hlogin⟩ := user_login h
  unfold statsRow
  rw [hlogin]
  rfl

theorem readable_pipeline {out : List Doc}
    (hperm : out.Perm (((db.docs .users).filter (isActive db)).map fun user =>
      statsRow user (contentOf db user))) : Readable out := by
  intro d hd
  obtain ⟨user, huser, rfl⟩ := List.mem_map.mp (hperm.mem_iff.mp hd)
  exact statsRow_decodable (List.mem_of_mem_filter huser) _

/-- The posts with content among those of a user. -/
theorem withContent_postsOf (id : ObjectId) :
    withContent (postsOf (some id) none db) = membersOf db (.oid id) := by
  unfold withContent postsOf membersOf DocStore.find
  rw [List.filter_comm]
  apply List.filter_congr
  intro d hd
  obtain ⟨author, hauthor⟩ := post_author (List.mem_of_mem_filter hd)
  show (fieldEq (d.get "author_id") (.oid id) && true) = _
  rw [Bool.and_true, authorOf, hauthor]
  rfl

/-! ## The other query -/

section

variable [Bson]

theorem optionalOid_hex (id : ObjectId) : optionalOid (some id.hex) = .ok (some id) := by
  have hne : id.hex ≠ "" := by
    intro heq
    have hlength := congrArg String.length heq
    rw [ObjectId.hex, String.length_ofList, List.length_map, id.length_eq] at hlength
    cases hlength
  have hthere : nonEmpty (some id.hex) = some id.hex := by
    rw [nonEmpty, Option.filter_some, if_pos (decide_eq_true hne)]
  unfold optionalOid
  rw [hthere]
  show (oid id.hex).map some = _
  rw [oid, Bson.parse?_hex]
  rfl

theorem query?_postsBy (id : ObjectId) : (postsBy id).query? =
    some (.find .posts (postsQuery (some id) none) [("created_at", true)]) := by
  simp only [postsBy, Request.query?, optionalOid_hex]

/-- The encoding keeps the contents of posts, and the numbers of likes. -/
theorem listed_numbers {rows docs : List Doc} (hposts : ∀ d ∈ rows, d ∈ db.docs .posts)
    (h : rows.mapM to_json = .ok docs) :
    (withContent docs).length = (withContent rows).length ∧
      likesOf (withContent docs) = likesOf (withContent rows) := by
  have hpairs := Fallible.forall₂_of_mapM h
  clear h
  induction hpairs with
  | nil => exact ⟨rfl, rfl⟩
  | @cons d doc rows docs hd _ ih =>
    rw [List.forall_mem_cons] at hposts
    specialize ih hposts.2
    have hcontent : doc.get "content" = d.get "content" := get_to_json hd (by decide)
    -- to_json writes each like as a text and keeps their number
    have hlikes : (doc.entries "likes").length = (d.entries "likes").length := by
      obtain ⟨likes, hget, -⟩ := Db.post_likes hposts.1
      obtain ⟨xs, hxs, hget'⟩ := get_likes_to_json hd hget
      cases hxs
      unfold Doc.entries
      rw [hget, hget']
      exact List.length_map ..
    unfold withContent at ih ⊢
    rw [List.filter_cons, List.filter_cons, hcontent]
    split_ifs
    · unfold likesOf at ih ⊢
      rw [List.length_cons, List.length_cons, List.map_cons, List.map_cons, List.sum_cons,
        List.sum_cons, ih.1, ih.2, hlikes]
      exact ⟨rfl, rfl⟩
    · exact ih

/-- The encoded posts of a user, in some order. -/
theorem respond_postsBy {ω : Choice} {id : ObjectId} (hread : Readable (postsOf (some id) none db))
    (h : ω.Possible (postsBy id) db) :
    ∃ posts, respond ω (postsBy id) db = .ok (missReply posts) ∧
      (withContent posts).length = (withContent (postsOf (some id) none db)).length ∧
      likesOf (withContent posts) = likesOf (withContent (postsOf (some id) none db)) := by
  have herror : (Query.find .posts (postsQuery (some id) none) [("created_at", true)]).error? db =
      none := by
    rw [Query.error?, if_pos (encodable_postsQuery (some id))]
    exact if_pos hread
  have hreturns := h _ (query?_postsBy id) herror
  have hperm : ω.rows.Perm (postsOf (some id) none db) := hreturns.2.2.1
  have hposts : ∀ d ∈ ω.rows, d ∈ db.docs .posts := fun d hd =>
    List.mem_of_mem_filter (hperm.mem_iff.mp hd)
  obtain ⟨docs, hdocs⟩ := Fallible.mapM_ok_iff.mpr fun d hd => (encodable_of_post (hposts d hd)).to_json_ok
  -- all dates can be read and all posts encoded, so nothing can raise
  have hrespond : respond ω (postsBy id) db = .ok (missReply docs) := by
    rw [respond_get rfl, query?_postsBy]
    show (rowsOf ω _ db).bind _ = _
    rw [rowsOf_eq_ok.mpr ⟨hreturns, rfl⟩]
    show (ω.rows.mapM to_json).map missReply = _
    rw [hdocs]
    rfl
  have hmembers : (withContent ω.rows).Perm (withContent (postsOf (some id) none db)) := hperm.filter _
  obtain ⟨hlength, hlikes⟩ := listed_numbers hposts hdocs
  refine ⟨docs, hrespond, ?_, ?_⟩
  · rw [hlength, hmembers.length_eq]
  · rw [hlikes]
    exact (hmembers.map _).sum_nat

/-- The posts of a user can be listed, if they can be read. -/
theorem exists_possible_postsBy {id : ObjectId} (hread : Readable (postsOf (some id) none db)) :
    ∃ ω : Choice, ω.Possible (postsBy id) db := by
  obtain ⟨rows, horder⟩ := exists_order (some id) none db
  refine ⟨⟨.ofNat 0, rows, [], true⟩, fun q hq _ => ?_⟩
  rw [query?_postsBy] at hq
  cases hq
  exact ⟨encodable_postsQuery _, (Readable.perm horder.1).mpr hread, horder⟩

/-! ## The statistics -/

/-- The row of the pipeline is that of the user. -/
theorem isRowOf_statsRow {user : Doc} (h : user ∈ db.docs .users) :
    IsRowOf db user (statsRow user (contentOf db user)) := by
  obtain ⟨id, hid⟩ := db.users.id user h
  obtain ⟨login, hlogin⟩ := user_login h
  have hcontent : contentOf db user = withContent (postsOf (some id) none db) := by
    rw [contentOf, hid, withContent_postsOf]
    rfl
  refine ⟨id, .str login, _, _, hid, hlogin, ?_, rfl, rfl, fun hread =>
    ⟨exists_possible_postsBy hread, fun ω hω => ?_⟩⟩
  · rw [statsRow, hid, hlogin, hcontent]
    rfl
  · obtain ⟨posts, hrespond, hlength, hlikes⟩ := respond_postsBy hread hω
    exact ⟨posts, hrespond, hlength.symm, hlikes.symm⟩

end

open scoped Hex

/-- A user whose one post is dated after the year 9999. -/
def farDb : Db :=
  Option.get
    (do
      let db ← Db.empty.insert_one .users (.ofNat 1)
        [("login", .str "bob"), ("email", .str "bob@example.com"), ("password", .str "secret"),
          ("first_name", .str "Bob"), ("last_name", .str "Brown"), ("created_at", .date 1779184800000)]
      db.insert_one .posts (.ofNat 2)
        [("author_id", .oid (.ofNat 1)), ("content", .str "hello"), ("tags", strings []),
          ("likes", .arr []), ("comments", .arr []), ("created_at", .date 253402300800000)])
    (by decide +kernel)

end SocialNetwork.MongoApi

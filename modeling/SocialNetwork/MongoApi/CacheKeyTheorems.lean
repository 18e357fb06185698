import SocialNetwork.Lib.Text
import SocialNetwork.MongoApi.AnswerTheorems

/-!
# What a cache key identifies

A key is put together from texts of the client. `None` stands for an argument that is absent, and
is a text like any other; the separators may occur in the texts. Two requests with one key may so
have different answers: `same_key_same_answer_iff` says when.
-/

namespace SocialNetwork.MongoApi

open DocStore KeyValue

variable {db : Db} {r r' : Request} {login login' author_id author_id' tag tag' : Option String}
  {min_age min_age' : Option Int}

/-! ## Keys -/

/-- One of two arguments is absent, and the other one is the text `None`. -/
def Confused (o o' : Option String) : Prop :=
  o = none ∧ o' = some "None" ∨ o = some "None" ∧ o' = none

/-- Arguments that are written alike are equal, or confused. -/
theorem eq_or_confused {o o' : Option String} (h : fmt o = fmt o') : o = o' ∨ Confused o o' := by
  cases o with
  | none =>
    cases o' with
    | none => exact .inl rfl
    | some s => exact .inr (.inl ⟨rfl, congrArg some h.symm⟩)
  | some s =>
    cases o' with
    | none => exact .inr (.inr ⟨congrArg some h, rfl⟩)
    | some s' => exact .inl (congrArg some h)

/-- A number has no colon, and is not written as `None`. -/
theorem colon_notMem_fmt (min_age : Option Int) : ':' ∉ (fmt (min_age.map toString)).toList := by
  cases min_age with
  | none => decide
  | some n => exact Text.notMem_toString_int (by decide) (by decide) n

theorem fmt_number_injective (h : fmt (min_age.map toString) = fmt (min_age'.map toString)) :
    min_age = min_age' := by
  have hnone : ∀ n : Int, toString n ≠ "None" := by
    intro n hn
    have hmem : 'N' ∈ (toString n).toList := by
      rw [hn]
      decide
    exact Text.notMem_toString_int (by decide) (by decide) n hmem
  cases min_age with
  | none =>
    cases min_age' with
    | none => rfl
    | some n => exact absurd h.symm (hnone n)
  | some m =>
    cases min_age' with
    | none => exact absurd h (hnone m)
    | some n => exact congrArg some (Text.toString_int_injective h)

/-- A key of `GET /users` tells the arguments apart, up to confusion. -/
theorem usersKey_eq (h : usersKey login min_age = usersKey login' min_age') :
    min_age = min_age' ∧ (login = login' ∨ Confused login login') := by
  have hnumber : ∀ min_age : Option Int,
      ':' ∉ "min_age=".toList ++ (fmt (min_age.map toString)).toList := by
    intro min_age
    rw [List.mem_append, not_or]
    exact ⟨by decide, colon_notMem_fmt min_age⟩
  have hlist := congrArg String.toList h
  simp only [usersKey, String.toList_append, List.append_assoc, List.append_cancel_left_eq] at hlist
  obtain ⟨hlogin, hrest⟩ := Text.append_sep_inj (hnumber min_age) (hnumber min_age') hlist
  have hmin_age := String.toList_injective (List.append_cancel_left hrest)
  exact ⟨fmt_number_injective hmin_age, eq_or_confused (String.toList_injective hlogin)⟩

/-- A key of `GET /posts` tells the arguments apart, up to confusion, unless one `author_id` has a
colon. -/
theorem postsKey_eq (h : postsKey author_id tag = postsKey author_id' tag') :
    (author_id = author_id' ∨ Confused author_id author_id') ∧ (tag = tag' ∨ Confused tag tag') ∨
      ':' ∈ (fmt author_id).toList ∨ ':' ∈ (fmt author_id').toList := by
  have hsep : ":tag=".toList = ':' :: "tag=".toList := by decide
  have hlist := congrArg String.toList h
  unfold postsKey at hlist
  simp only [String.toList_append, List.append_assoc] at hlist
  rw [hsep] at hlist
  replace hlist := List.append_cancel_left hlist
  by_cases hauthor : (fmt author_id).toList = (fmt author_id').toList
  · left
    rw [hauthor] at hlist
    have hrest := (List.cons.inj (List.append_cancel_left hlist)).2
    have htag := String.toList_injective (List.append_cancel_left hrest)
    exact ⟨eq_or_confused (String.toList_injective hauthor), eq_or_confused htag⟩
  · exact .inr (Text.sep_mem_of_ne hlist hauthor)

/-! ## What the requests select -/

/-- The users that a request selects. -/
def usersOf (login : Option String) (min_age : Option Int) (db : Db) : List Doc :=
  DocStore.find (usersQuery login min_age) (db.docs .users)

/-- The minimal age can be sent to Mongo. -/
def fits (min_age : Option Int) : Bool := min_age.all fun n => isInt64 n

theorem encodable_usersQuery : (usersQuery login min_age).encodable = fits min_age := by
  unfold usersQuery fits
  cases nonEmpty login <;> cases min_age <;> simp [Filter.encodable, Value.encodable]

/-- The user has the login `None`. -/
def isNone (d : Doc) : Bool := Filter.holds (usersQuery (some "None") none) d

theorem usersOf_none : usersOf (some "None") min_age db = (usersOf none min_age db).filter isNone := by
  unfold usersOf DocStore.find
  rw [List.filter_filter]
  apply List.filter_congr
  intro d _
  cases min_age <;> simp [isNone, usersQuery, nonEmpty, Filter.holds, Bool.and_comm]

/-- The posts that a request selects. -/
def postsOf (author : Option ObjectId) (tag : Option String) (db : Db) : List Doc :=
  DocStore.find (postsQuery author tag) (db.docs .posts)

theorem encodable_postsQuery (author : Option ObjectId) :
    (postsQuery author tag).encodable = true := by
  unfold postsQuery
  cases author <;> cases nonEmpty tag <;>
    simp [Filter.encodable, Value.encodable]

/-- Posts can be listed in the order of their dates. -/
theorem exists_order (author : Option ObjectId) (tag : Option String) (db : Db) :
    ∃ rows : List Doc, rows.Perm (postsOf author tag db) ∧ Sorted [("created_at", true)] rows := by
  apply exists_sorted
  intro d hd x hx
  obtain ⟨ms, hms⟩ := Db.post_created_at (List.mem_of_mem_filter hd : d ∈ db.docs .posts)
  rw [List.mem_singleton.mp hx, hms]
  rfl

/-- The post has the tag `None`. -/
def hasTagNone (d : Doc) : Bool := Filter.holds (postsQuery none (some "None")) d

theorem postsOf_tagNone {author : Option ObjectId} :
    postsOf author (some "None") db = (postsOf author none db).filter hasTagNone := by
  unfold postsOf DocStore.find
  rw [List.filter_filter]
  apply List.filter_congr
  intro d _
  cases author <;> simp [hasTagNone, postsQuery, nonEmpty, Filter.holds, Bool.and_comm]

/-- The validator of posts makes them encodable. -/
theorem encodable_of_post {d : Doc} (hd : d ∈ db.docs .posts) : Encodable d := by
  obtain ⟨id, hid⟩ := db.posts.id d hd
  obtain ⟨likes, hlikes, -⟩ := Db.post_likes hd
  obtain ⟨comments, hcomments, hall⟩ := Db.post_comments hd
  refine ⟨⟨_, hid⟩, fun v hv => ?_, fun v hv => ?_⟩
  · rw [hlikes] at hv
    cases hv
    exact ⟨likes, rfl⟩
  · rw [hcomments] at hv
    cases hv
    refine ⟨comments, rfl, fun x hx => ?_⟩
    obtain ⟨comment, -, rfl, -⟩ := hall x hx
    rfl

/-- The document can be read and encoded. -/
def Shown (d : Doc) : Prop := (Value.obj d).decodable = true ∧ Encodable d

theorem shown_iff_of_post {d : Doc} (hd : d ∈ db.docs .posts) :
    Shown d ↔ (Value.obj d).decodable = true := and_iff_left (encodable_of_post hd)

section

variable [Bson]

/-- A text with a colon is no id, and neither is `None`. -/
theorem optionalOid_refuses (h : ':' ∈ (fmt author_id).toList ∨ author_id = some "None") :
    optionalOid author_id = .error (.httpException 400 "Invalid ObjectId" []) := by
  -- a valid id has 24 characters and no colon
  have hvalid : ∀ s id, Bson.parse? s = some id → ':' ∉ s.toList ∧ s ≠ "None" := by
    intro s id hid
    obtain ⟨hlength, hchars⟩ := Bson.parse?_chars hid
    refine ⟨fun hcolon => ?_, ?_⟩
    · rcases hchars ':' hcolon with hdigit | hblank
      · exact absurd hdigit (by decide)
      · exact absurd hblank (by decide)
    · rintro rfl
      exact absurd hlength (by decide)
  have htext : ∃ s, author_id = some s ∧ s ≠ "" ∧ Bson.parse? s = none := by
    rcases h with hcolon | rfl
    · cases author_id with
      | none => exact absurd hcolon (by decide)
      | some s =>
        refine ⟨s, rfl, ?_, Option.eq_none_iff_forall_ne_some.mpr fun id hid => ?_⟩
        · rintro rfl
          cases hcolon
        · exact (hvalid s id hid).1 hcolon
    · refine ⟨"None", rfl, by decide, Option.eq_none_iff_forall_ne_some.mpr fun id hid => ?_⟩
      exact (hvalid "None" id hid).2 rfl
  obtain ⟨s, rfl, hne, hparse⟩ := htext
  have hthere : nonEmpty (some s) = some s := by
    unfold nonEmpty
    rw [Option.filter_some, if_pos (decide_eq_true hne)]
  unfold optionalOid
  rw [hthere]
  show (oid s).map some = _
  unfold oid
  rw [hparse]
  rfl

/-! ## Answers -/

/-- The status and the body that the client gets. -/
def statusBody : Except PyError Reply → Nat × Value
  | .ok reply => (200, reply.body)
  | .error (.httpException status_code detail _) => (status_code, .obj [("detail", .str detail)])
  | .error _ => (500, .str "Internal Server Error")

/-- The request may get this answer when nothing is cached. -/
def Answers (r : Request) (db : Db) (x : Nat × Value) : Prop :=
  ∃ ω : Choice, (∀ q, r.query? = some q → q.error? db = none → q.Returns db ω.rows) ∧
    x = statusBody (respond ω r db)

/-- The requests have the same answers. -/
def SameAnswer (r r' : Request) (db : Db) : Prop := ∀ x, Answers r db x ↔ Answers r' db x

/-- The answers of a cached `GET`: the exception of its query, or what its rows are encoded as. -/
theorem answers_iff {q : Query} (hkey : r.cache_key.isSome = true) (hq : r.query? = some q)
    {x : Nat × Value} :
    Answers r db x ↔
      (∃ e, q.error? db = some e ∧ x = statusBody (.error e)) ∨
        ∃ rows, q.Returns db rows ∧ x = statusBody ((r.encodeDocs rows).map missReply) := by
  have hrespond : ∀ ω, respond ω r db =
      (rowsOf ω q db).bind fun rows => (r.encodeDocs rows).map missReply := by
    intro ω
    rw [respond_get hkey, hq]
  constructor
  · rintro ⟨ω, hω, rfl⟩
    rw [hrespond]
    -- a query that can be refused leaves no choice of rows
    cases herror : q.error? db with
    | some e =>
      left
      refine ⟨e, rfl, ?_⟩
      unfold rowsOf
      rw [herror]
      rfl
    | none =>
      right
      have hreturns := hω q hq herror
      refine ⟨ω.rows, hreturns, ?_⟩
      rw [rowsOf_eq_ok.mpr ⟨hreturns, rfl⟩]
      rfl
  · rintro (⟨e, herror, rfl⟩ | ⟨rows, hreturns, rfl⟩)
    · refine ⟨⟨.ofNat 0, [], [], true⟩, fun q' hq' herror' => ?_, ?_⟩
      · rw [hq] at hq'
        cases hq'
        rw [herror] at herror'
        cases herror'
      · rw [hrespond]
        unfold rowsOf
        rw [herror]
        rfl
    · refine ⟨⟨.ofNat 0, rows, [], true⟩, fun q' hq' _ => ?_, ?_⟩
      · rw [hq] at hq'
        cases hq'
        exact hreturns
      · rw [hrespond, rowsOf_eq_ok.mpr ⟨hreturns, rfl⟩]
        rfl

/-- The answer that lists some rows. -/
def listed (rows : List Doc) : Nat × Value :=
  if Readable rows then statusBody ((rows.mapM to_json).map missReply)
  else (500, .str "Internal Server Error")

theorem listed_ok {rows docs : List Doc} (hread : Readable rows) (h : rows.mapM to_json = .ok docs) :
    listed rows = (200, listOf docs) := by
  unfold listed
  rw [if_pos hread, h]
  rfl

/-- One row is enough to make a listing fail. -/
theorem listed_error {rows : List Doc} {d : Doc} (hd : d ∈ rows) (hshown : ¬ Shown d) :
    listed rows = (500, .str "Internal Server Error") := by
  unfold listed
  split_ifs with hread
  · cases hmap : rows.mapM to_json with
    | ok docs =>
      exact absurd ⟨hread d hd, encodable_iff.mpr (Fallible.mapM_ok_iff.mp ⟨docs, hmap⟩ d hd)⟩ hshown
    | error e =>
      obtain ⟨d', -, hd'⟩ := Fallible.exists_of_mapM_error hmap
      rcases to_json_error hd' with rfl | rfl <;> rfl
  · rfl

theorem exists_listed {rows : List Doc} (h : ∀ d ∈ rows, Shown d) :
    ∃ docs, rows.mapM to_json = .ok docs ∧ listed rows = (200, listOf docs) := by
  obtain ⟨docs, hdocs⟩ := Fallible.mapM_ok_iff.mpr fun d hd => (h d hd).2.to_json_ok
  exact ⟨docs, hdocs, listed_ok (fun d hd => (h d hd).1) hdocs⟩

theorem listed_status (rows : List Doc) : (listed rows).1 = 200 ∨ (listed rows).1 = 500 := by
  by_cases hshown : ∀ d ∈ rows, Shown d
  · obtain ⟨docs, -, hlisted⟩ := exists_listed hshown
    rw [hlisted]
    exact .inl rfl
  · push Not at hshown
    obtain ⟨d, hd, hshown⟩ := hshown
    rw [listed_error hd hshown]
    exact .inr rfl

/-- Answers that list rows list equally many of them. -/
theorem length_eq_of_listed {rows rows' : List Doc} (h : ∀ d ∈ rows, Shown d)
    (heq : listed rows = listed rows') : rows.length = rows'.length := by
  obtain ⟨docs, hdocs, hlisted⟩ := exists_listed h
  have h' : ∀ d ∈ rows', Shown d := by
    intro d hd
    by_contra hshown
    rw [hlisted, listed_error hd hshown] at heq
    cases heq
  obtain ⟨docs', hdocs', hlisted'⟩ := exists_listed h'
  rw [hlisted, hlisted'] at heq
  have hbody : docs.map Value.obj = docs'.map Value.obj := Value.arr.inj (Prod.mk.inj heq).2
  have hlength := congrArg List.length hbody
  rw [List.length_map, List.length_map, Fallible.length_of_mapM hdocs, Fallible.length_of_mapM hdocs']
    at hlength
  exact hlength

/-- Some of the rows are answered as all of them just if they are all of them, or one of them cannot
be shown. -/
theorem listed_filter_iff {rows : List Doc} {p : Doc → Bool} :
    listed (rows.filter p) = listed rows ↔
      (∀ d ∈ rows, p d = true) ∨ ∃ d ∈ rows.filter p, ¬ Shown d := by
  constructor
  · intro heq
    by_cases hshown : ∀ d ∈ rows.filter p, Shown d
    · exact .inl (List.length_filter_eq_length_iff.mp (length_eq_of_listed hshown heq))
    · push Not at hshown
      exact .inr hshown
  · rintro (hall | ⟨d, hd, hshown⟩)
    · rw [List.filter_eq_self.mpr hall]
    · -- the row is among all of them too
      rw [listed_error hd hshown, listed_error (List.mem_of_mem_filter hd) hshown]

/-! ## Users -/

/-- The answer to `GET /users`. -/
theorem answers_users {x : Nat × Value} :
    Answers (.get_users login min_age) db x ↔
      x = if fits min_age then listed (usersOf login min_age db)
        else (500, .str "Internal Server Error") := by
  rw [answers_iff rfl rfl]
  show (∃ e, (if (usersQuery login min_age).encodable then
      (if Readable (usersOf login min_age db) then none else some PyError.invalidBSON)
        else some PyError.overflowError) = some e ∧ _) ∨
    (∃ rows, ((usersQuery login min_age).encodable = true ∧ Readable rows ∧
      rows = usersOf login min_age db) ∧ x = statusBody ((rows.mapM to_json).map missReply)) ↔ _
  rw [encodable_usersQuery]
  by_cases hfits : fits min_age = true
  · unfold listed
    by_cases hread : Readable (usersOf login min_age db)
    · simp [hfits, hread]
    · have hnone : ¬ ∃ rows, Readable rows ∧ rows = usersOf login min_age db := by
        rintro ⟨rows, hrows, rfl⟩
        exact hread hrows
      simp [hfits, hread, statusBody]
  · simp [hfits, statusBody]

theorem sameAnswer_users :
    SameAnswer (.get_users login min_age) (.get_users login' min_age) db ↔
      (fits min_age = true → listed (usersOf login min_age db) = listed (usersOf login' min_age db)) := by
  unfold SameAnswer
  simp only [answers_users]
  by_cases hfits : fits min_age = true
  · rw [if_pos hfits, if_pos hfits]
    constructor
    · intro h _
      exact (h _).mp rfl
    · intro h x
      rw [h hfits]
  · rw [if_neg hfits, if_neg hfits]
    exact iff_of_true (fun _ => Iff.rfl) fun h => absurd h hfits

/-- When the login `None` makes no difference to the answer of `GET /users`: the minimal age cannot
be sent, every user it selects has this login, or one that has cannot be read or encoded. -/
def LoginNoneHarmless (min_age : Option Int) (db : Db) : Prop :=
  fits min_age = false ∨ (∀ d ∈ usersOf none min_age db, isNone d = true) ∨
    ∃ d ∈ usersOf (some "None") min_age db, ¬ Shown d

theorem sameAnswer_loginNone :
    SameAnswer (.get_users (some "None") min_age) (.get_users none min_age) db ↔
      LoginNoneHarmless min_age db := by
  rw [sameAnswer_users, usersOf_none, listed_filter_iff]
  unfold LoginNoneHarmless
  rw [usersOf_none]
  by_cases hfits : fits min_age = true
  · simp [hfits]
  · simp [hfits]

/-! ## Posts -/

/-- An `author_id` that is refused is answered with 400. -/
theorem answers_refused {e : PyError} (h : optionalOid author_id = .error e) {x : Nat × Value} :
    Answers (.get_posts author_id tag) db x ↔
      x = (400, .obj [("detail", .str "Invalid ObjectId")]) := by
  have hquery : Request.query? (.get_posts author_id tag) = none := by
    simp only [Request.query?, h]
  have hrespond : ∀ ω, respond ω (.get_posts author_id tag) db =
      .error (.httpException 400 "Invalid ObjectId" []) := by
    intro ω
    rw [respond_get rfl, hquery]
  constructor
  · rintro ⟨ω, -, rfl⟩
    rw [hrespond]
    rfl
  · rintro rfl
    refine ⟨⟨.ofNat 0, [], [], true⟩, fun q hq _ => ?_, ?_⟩
    · rw [hquery] at hq
      cases hq
    · rw [hrespond]
      rfl

/-- The answers to `GET /posts`, one for each order of the posts of one moment. -/
theorem answers_posts {author : Option ObjectId} (h : optionalOid author_id = .ok author)
    {x : Nat × Value} :
    Answers (.get_posts author_id tag) db x ↔
      ∃ rows : List Doc, (rows.Perm (postsOf author tag db) ∧ Sorted [("created_at", true)] rows) ∧
        x = listed rows := by
  have hquery : Request.query? (.get_posts author_id tag) =
      some (.find .posts (postsQuery author tag) [("created_at", true)]) := by
    simp only [Request.query?, h]
  rw [answers_iff rfl hquery]
  show (∃ e, (if (postsQuery author tag).encodable then
      (if Readable (postsOf author tag db) then none else some PyError.invalidBSON)
        else some PyError.overflowError) = some e ∧ _) ∨
    (∃ rows : List Doc, ((postsQuery author tag).encodable = true ∧ Readable rows ∧
      rows.Perm (postsOf author tag db) ∧ Sorted [("created_at", true)] rows) ∧
        x = statusBody ((rows.mapM to_json).map missReply)) ↔ _
  rw [if_pos (encodable_postsQuery author)]
  -- an unreadable date fails the query in whatever order the posts come
  by_cases hread : Readable (postsOf author tag db)
  · rw [if_pos hread]
    constructor
    · rintro (⟨e, he, -⟩ | ⟨rows, ⟨-, hrows, horder⟩, rfl⟩)
      · cases he
      · exact ⟨rows, horder, (if_pos hrows).symm⟩
    · rintro ⟨rows, horder, rfl⟩
      have hrows : Readable rows := (Readable.perm horder.1).mpr hread
      exact .inr ⟨rows, ⟨encodable_postsQuery author, hrows, horder⟩, if_pos hrows⟩
  · rw [if_neg hread]
    constructor
    · rintro (⟨e, he, rfl⟩ | ⟨rows, ⟨-, hrows, horder⟩, -⟩)
      · obtain ⟨rows, horder⟩ := exists_order author tag db
        refine ⟨rows, horder, ?_⟩
        rw [← Option.some.inj he]
        exact (if_neg fun hrows => hread ((Readable.perm horder.1).mp hrows)).symm
      · exact absurd ((Readable.perm horder.1).mp hrows) hread
    · rintro ⟨rows, horder, rfl⟩
      exact .inl ⟨_, rfl, if_neg fun hrows => hread ((Readable.perm horder.1).mp hrows)⟩

/-- Requests with the same answers select equally many posts, if those of the first can be read. -/
theorem length_eq_of_sameAnswer {author author' : Option ObjectId}
    (h : optionalOid author_id = .ok author) (h' : optionalOid author_id' = .ok author')
    (hread : Readable (postsOf author tag db))
    (hsame : SameAnswer (.get_posts author_id tag) (.get_posts author_id' tag') db) :
    (postsOf author tag db).length = (postsOf author' tag' db).length := by
  obtain ⟨rows, horder⟩ := exists_order author tag db
  have hanswer := (hsame (listed rows)).mp ((answers_posts h).mpr ⟨rows, horder, rfl⟩)
  obtain ⟨rows', horder', heq⟩ := (answers_posts h').mp hanswer
  rw [← horder.1.length_eq, ← horder'.1.length_eq]
  refine length_eq_of_listed (fun d hd => ?_) heq
  have hd' := horder.1.mem_iff.mp hd
  exact (shown_iff_of_post (List.mem_of_mem_filter hd')).mpr (hread d hd')

/-- When the tag `None` makes no difference to the posts of an author: every one of them has it, or
one that has cannot be read. -/
def TagNoneHarmless (author : Option ObjectId) (db : Db) : Prop :=
  (∀ d ∈ postsOf author none db, hasTagNone d = true) ∨ ¬ Readable (postsOf author (some "None") db)

theorem sameAnswer_tagNone {author : Option ObjectId} (h : optionalOid author_id = .ok author) :
    SameAnswer (.get_posts author_id (some "None")) (.get_posts author_id none) db ↔
      TagNoneHarmless author db := by
  constructor
  · intro hsame
    by_cases hread : Readable (postsOf author (some "None") db)
    · have hlength := length_eq_of_sameAnswer h h hread hsame
      rw [postsOf_tagNone] at hlength
      exact .inl (List.length_filter_eq_length_iff.mp hlength)
    · exact .inr hread
  · rintro (hall | hread) x
    · rw [answers_posts h, answers_posts h, postsOf_tagNone, List.filter_eq_self.mpr hall]
    · -- the post that cannot be read is among all of them too
      unfold Readable at hread
      push Not at hread
      obtain ⟨d, hd, hdecodable⟩ := hread
      have hfails : ∀ {tag : Option String}, d ∈ postsOf author tag db → ∀ x,
          Answers (.get_posts author_id tag) db x ↔ x = (500, .str "Internal Server Error") := by
        intro tag hd x
        have hshown : ¬ Shown d := fun h => hdecodable h.1
        rw [answers_posts h]
        constructor
        · rintro ⟨rows, horder, rfl⟩
          exact listed_error (horder.1.mem_iff.mpr hd) hshown
        · rintro rfl
          obtain ⟨rows, horder⟩ := exists_order author tag db
          exact ⟨rows, horder, (listed_error (horder.1.mem_iff.mpr hd) hshown).symm⟩
      have hall : d ∈ postsOf author none db := by
        rw [postsOf_tagNone] at hd
        exact List.mem_of_mem_filter hd
      rw [hfails hd, hfails hall]

theorem SameAnswer.symm (h : SameAnswer r r' db) : SameAnswer r' r db := fun x => (h x).symm

theorem sameAnswer_comm : SameAnswer r r' db ↔ SameAnswer r' r db :=
  ⟨SameAnswer.symm, SameAnswer.symm⟩

/-! ## When one key means one answer -/

/-- The logins are equal, or the login `None` makes no difference. -/
def UsersAgree (login login' : Option String) (min_age : Option Int) (db : Db) : Prop :=
  login = login' ∨ LoginNoneHarmless min_age db

/-- Both `author_id`s are refused, or none is, and the tags are equal or the tag `None` makes no
difference to the posts of the author. -/
def PostsAgree (author_id author_id' tag tag' : Option String) (db : Db) : Prop :=
  match optionalOid author_id, optionalOid author_id' with
  | .error _, .error _ => True
  | .ok author, .ok _ => tag = tag' ∨ TagNoneHarmless author db
  | _, _ => False

/-- Requests with one key, both of whose `author_id`s are accepted, have the same one. -/
theorem author_eq_of_postsKey {author author' : Option ObjectId}
    (hkey : postsKey author_id tag = postsKey author_id' tag') (h : optionalOid author_id = .ok author)
    (h' : optionalOid author_id' = .ok author') :
    author_id = author_id' ∧ (tag = tag' ∨ Confused tag tag') := by
  have hcolon : ∀ {o : Option String} {a : Option ObjectId}, optionalOid o = .ok a →
      ¬ (':' ∈ (fmt o).toList ∨ o = some "None") := by
    intro o a ho hbad
    rw [optionalOid_refuses hbad] at ho
    cases ho
  rcases postsKey_eq hkey with ⟨hauthor | ⟨-, hnone⟩ | ⟨hnone, -⟩, htag⟩ | hbad | hbad
  · exact ⟨hauthor, htag⟩
  · exact absurd (.inr hnone) (hcolon h')
  · exact absurd (.inr hnone) (hcolon h)
  · exact absurd (.inl hbad) (hcolon h)
  · exact absurd (.inl hbad) (hcolon h')

theorem users_agree_iff (hkey : usersKey login min_age = usersKey login' min_age') :
    SameAnswer (.get_users login min_age) (.get_users login' min_age') db ↔
      UsersAgree login login' min_age db := by
  obtain ⟨rfl, rfl | ⟨rfl, rfl⟩ | ⟨rfl, rfl⟩⟩ := usersKey_eq hkey
  · exact iff_of_true (fun x => Iff.rfl) (.inl rfl)
  · rw [sameAnswer_comm, sameAnswer_loginNone]
    exact (or_iff_right (fun h => nomatch h)).symm
  · rw [sameAnswer_loginNone]
    exact (or_iff_right (fun h => nomatch h)).symm

theorem posts_agree_iff (hkey : postsKey author_id tag = postsKey author_id' tag') :
    SameAnswer (.get_posts author_id tag) (.get_posts author_id' tag') db ↔
      PostsAgree author_id author_id' tag tag' db := by
  have hmixed : ∀ {o o' t t' : Option String} {e : PyError} {a : Option ObjectId},
      optionalOid o = .error e → optionalOid o' = .ok a →
        ¬ SameAnswer (.get_posts o t) (.get_posts o' t') db := by
    intro o o' t t' e a ho ho' hsame
    -- the one is answered with 400, the other one with a list
    obtain ⟨rows, -, hrows⟩ := (answers_posts ho').mp ((hsame _).mp ((answers_refused ho).mpr rfl))
    rcases listed_status rows with hstatus | hstatus
    all_goals
      rw [← hrows] at hstatus
      cases hstatus
  unfold PostsAgree
  cases h : optionalOid author_id with
  | error e =>
    cases h' : optionalOid author_id' with
    | error e' =>
      refine iff_of_true (fun x => ?_) trivial
      rw [answers_refused h, answers_refused h']
    | ok author' => exact iff_of_false (hmixed h h') id
  | ok author =>
    cases h' : optionalOid author_id' with
    | error e' => exact iff_of_false (fun hsame => hmixed h' h hsame.symm) id
    | ok author' =>
      obtain ⟨rfl, rfl | ⟨rfl, rfl⟩ | ⟨rfl, rfl⟩⟩ := author_eq_of_postsKey hkey h h'
      · exact iff_of_true (fun x => Iff.rfl) (.inl rfl)
      · rw [sameAnswer_comm, sameAnswer_tagNone h]
        exact (or_iff_right (fun h => nomatch h)).symm
      · rw [sameAnswer_tagNone h]
        exact (or_iff_right (fun h => nomatch h)).symm

end

open scoped Hex

/-- One user with the login `None`, and one post of his with the tag `None`. -/
def noneDb : Db :=
  Option.get
    (do
      let db ← Db.empty.insert_one .users (.ofNat 1)
        [("login", .str "None"), ("email", .str "none@example.com"), ("password", .str "secret"),
          ("first_name", .str "No"), ("last_name", .str "One"), ("created_at", .date 1779184800000)]
      db.insert_one .posts (.ofNat 2)
        [("author_id", .oid (.ofNat 1)), ("content", .str "hello"), ("tags", strings ["intro", "None"]),
          ("likes", .arr []), ("comments", .arr []), ("created_at", .date 1779184860000)])
    (by decide +kernel)

end SocialNetwork.MongoApi

import SocialNetwork.MongoApi.Conversion
import SocialNetwork.MongoApi.InitialData
import SocialNetwork.MongoApi.ReferenceTheorems

/-!
# Conversion of documents

From the data of `mongo-init.js` on, every document is `Convertible`, whatever is requested. So
`to_json` is complete and lossless on whatever the API may read.
-/

namespace SocialNetwork.MongoApi

open DocStore

/-! ## The documents that are there -/

/-- Texts hold no id. -/
theorem oidFree_strings (xs : List String) : (strings xs).oidFree = true := by
  show Value.oidFreeList (xs.map .str) = true
  induction xs with
  | nil => rfl
  | cons x xs ih =>
    rw [List.map_cons, Value.oidFreeList, ih]
    rfl

theorem placed_strings {f : String} (hf : f ∉ "_id" :: "likes" :: "comments" :: idKeys)
    (xs : List String) : Placed f (strings xs) := .other hf (oidFree_strings xs)

theorem placed_id (id : ObjectId) : Placed "_id" (.oid id) := .id (.inl rfl) id

/-- The comments that the API writes are well formed. -/
theorem commentOk_commentOf (user : ObjectId) (text : String) (created_at : Nat) :
    ∃ comment, commentOf user text created_at = .obj comment ∧ CommentOk comment := by
  refine ⟨_, rfl, ?_, ?_, ?_⟩
  · simp
  · intro v hv
    simp at hv
    rw [hv]
    rfl
  · simp [Value.oidFree]

/-- A registered user can be converted and restored. -/
theorem convertible_user (id : ObjectId) (user : UserCreate) (created_at : Nat) :
    Convertible (("_id", .oid id) :: (user.model_dump ++ [("created_at", .date created_at)])) := by
  have hage : ((user.age.map Value.int).getD .null).oidFree = true := by
    cases user.age <;> rfl
  refine ⟨by simp [UserCreate.model_dump], ⟨id, rfl⟩, ?_⟩
  simp only [UserCreate.model_dump, List.cons_append, List.nil_append, List.forall_mem_cons]
  exact ⟨placed_id id, .other (by decide) rfl, .other (by decide) rfl, .other (by decide) rfl,
    .other (by decide) rfl, .other (by decide) rfl, .other (by decide) hage,
    placed_strings (by decide) _, .other (by decide) rfl, nofun⟩

theorem convertible_initUser (id : ObjectId) (login email first_name last_name : String) (age : Int)
    (interests : List String) (created_at : Nat) : Convertible (("_id", .oid id) ::
      initUser login email first_name last_name age interests created_at) :=
  convertible_user id ⟨login, email, "123456", first_name, last_name, some age, interests⟩ created_at

theorem convertible_initPost (id author : ObjectId) (content : String) (tags : List String)
    (likes : List ObjectId) (created_at : Nat) (comments : List Value)
    (h : ∀ x ∈ comments, ∃ user text created_at, x = commentOf user text created_at) :
    Convertible (("_id", .oid id) :: initPost author content tags likes comments created_at) := by
  have hcomments : ∃ docs : List Doc, comments = docs.map .obj ∧ ∀ doc ∈ docs, CommentOk doc := by
    induction comments with
    | nil => exact ⟨[], rfl, nofun⟩
    | cons x comments ih =>
      rw [List.forall_mem_cons] at h
      obtain ⟨⟨user, text, at_, rfl⟩, hrest⟩ := h
      obtain ⟨docs, rfl, hdocs⟩ := ih hrest
      obtain ⟨comment, hcomment, hok⟩ := commentOk_commentOf user text at_
      refine ⟨comment :: docs, ?_, ?_⟩
      · rw [hcomment, List.map_cons]
      · rw [List.forall_mem_cons]
        exact ⟨hok, hdocs⟩
  obtain ⟨docs, rfl, hdocs⟩ := hcomments
  refine ⟨by simp [initPost], ⟨id, rfl⟩, ?_⟩
  simp only [initPost, List.forall_mem_cons]
  exact ⟨placed_id id, .id (by decide) author, .other (by decide) rfl, placed_strings (by decide) _,
    .likes likes, .comments docs hdocs, .other (by decide) rfl, nofun⟩

theorem convertible_initMessage (id from_ to_ : ObjectId) (text : String) (is_read : Bool)
    (created_at : Nat) :
    Convertible (("_id", .oid id) :: initMessage from_ to_ text is_read created_at) := by
  refine ⟨by simp [initMessage], ⟨id, rfl⟩, ?_⟩
  simp only [initMessage, List.forall_mem_cons]
  exact ⟨placed_id id, .id (by decide) from_, .id (by decide) to_, .other (by decide) rfl,
    .other (by decide) rfl, .other (by decide) rfl, nofun⟩

/-- What the script inserts can be converted and restored. -/
theorem convertible_init {ids : Coll → Nat → ObjectId} {date : Nat → Nat} {db : Db}
    (h : mongo_init ids date = some db) : ∀ c, ∀ d ∈ db.docs c, Convertible d :=
  forall_docs_init (P := fun _ => Convertible) convertible_initUser convertible_initPost
    convertible_initMessage h

/-! ## Requests -/

/-- A request inserts convertible documents only. -/
theorem convertible_insert [Bson] {l : Request} {g : Ghost} {coll : Coll} {doc : Doc} (id : ObjectId)
    (h : g.allows l (.insert_one coll doc)) : Convertible (("_id", .oid id) :: doc) := by
  cases coll with
  | users =>
    obtain ⟨user, created_at, -, rfl⟩ := h
    exact convertible_user id user created_at
  | posts =>
    obtain ⟨author, -, post, created_at, rfl⟩ := h
    exact convertible_initPost id author post.content post.tags [] created_at [] nofun
  | messages =>
    obtain ⟨from_, -, to_, -, message, created_at, rfl⟩ := h
    exact convertible_initMessage id from_ to_ message.text false created_at

section Updates

variable {d d' : Doc}

/-- Fields that are set keep the document convertible. -/
theorem Convertible.setAll (h : Convertible d) {fs : Doc}
    (hfs : ∀ x ∈ fs, x.1 ≠ "_id" ∧ Placed x.1 x.2) : Convertible (d.setAll fs) := by
  induction fs generalizing d with
  | nil => exact h
  | cons x fs ih =>
    rw [List.forall_mem_cons] at hfs
    exact ih (h.set hfs.1.2 hfs.1.1) hfs.2

/-- A `PATCH` sets texts, a number and a list of texts, and never the id. -/
theorem placed_update_data (data : UserUpdate) :
    ∀ x ∈ data.update_data, x.1 ≠ "_id" ∧ Placed x.1 x.2 := by
  intro x hx
  obtain ⟨y, hy, hxy⟩ := List.mem_filterMap.mp hx
  obtain ⟨v, hv, rfl⟩ := Option.map_eq_some_iff.mp hxy
  have hfields : (y.1 = "first_name" ∨ y.1 = "last_name" ∨ y.1 = "age" ∨ y.1 = "interests") ∧
      v.oidFree = true := by
    simp only [List.mem_cons, List.not_mem_nil, or_false] at hy
    rcases hy with rfl | rfl | rfl | rfl
    · obtain ⟨s, -, rfl⟩ := Option.map_eq_some_iff.mp hv
      exact ⟨.inl rfl, rfl⟩
    · obtain ⟨s, -, rfl⟩ := Option.map_eq_some_iff.mp hv
      exact ⟨.inr (.inl rfl), rfl⟩
    · obtain ⟨n, -, rfl⟩ := Option.map_eq_some_iff.mp hv
      exact ⟨.inr (.inr (.inl rfl)), rfl⟩
    · obtain ⟨xs, -, rfl⟩ := Option.map_eq_some_iff.mp hv
      exact ⟨.inr (.inr (.inr rfl)), oidFree_strings xs⟩
  obtain ⟨hname, hfree⟩ := hfields
  constructor
  · show y.1 ≠ "_id"
    rcases hname with h | h | h | h <;> rw [h] <;> decide
  · refine .other ?_ hfree
    show y.1 ∉ _
    rcases hname with h | h | h | h <;> rw [h] <;> decide

/-- The likes are ids. -/
theorem Convertible.likes (h : Convertible d) :
    ∃ likes : List ObjectId, d.entries "likes" = likes.map .oid := by
  unfold Doc.entries
  cases hget : d.get "likes" with
  | none => exact ⟨[], rfl⟩
  | some v =>
    obtain ⟨likes, rfl⟩ := (h.get hget).likes_inv
    exact ⟨likes, rfl⟩

/-- The comments are well formed. -/
theorem Convertible.comments (h : Convertible d) : ∃ comments : List Doc,
    d.entries "comments" = comments.map .obj ∧ ∀ comment ∈ comments, CommentOk comment := by
  unfold Doc.entries
  cases hget : d.get "comments" with
  | none => exact ⟨[], rfl, nofun⟩
  | some v =>
    obtain ⟨comments, rfl, hall⟩ := (h.get hget).comments_inv
    exact ⟨comments, rfl, hall⟩

/-- An update of a post keeps the ids where they are looked for. -/
theorem Convertible.postUpdate {update : Update} (h : Convertible d) (hupdate : PostUpdate update)
    (happly : update.apply d = some d') : Convertible d' := by
  obtain ⟨likes, hlikes⟩ := h.likes
  cases hupdate with
  | like user =>
    rw [Update.apply_addToSet] at happly
    rw [arrayField_eq_some happly, hlikes]
    refine h.set ?_ (show "likes" ≠ "_id" by decide)
    show Placed "likes" (.arr (addToSetOp (likes.map .oid) (.oid user)))
    -- the set of ids is the set of their values
    rw [addToSetOp_map Value.oid_injective]
    exact .likes _
  | unlike user =>
    rw [Update.apply_pull] at happly
    rcases pullField_eq_some happly with rfl | rfl
    · exact h
    · rw [hlikes]
      refine h.set ?_ (show "likes" ≠ "_id" by decide)
      show Placed "likes" (.arr (pullOp (likes.map .oid) (.oid user)))
      rw [pullOp_map Value.oid_injective]
      exact .likes _
  | comment user text created_at =>
    rw [Update.apply_push] at happly
    rw [arrayField_eq_some happly]
    obtain ⟨comments, hcomments, hall⟩ := h.comments
    obtain ⟨comment, hcomment, hok⟩ := commentOk_commentOf user text created_at
    refine h.set ?_ (show "comments" ≠ "_id" by decide)
    have hpush : pushOp (d.entries "comments") (commentOf user text created_at) =
        (comments ++ [comment]).map .obj := by
      rw [pushOp, hcomments, hcomment, List.map_append, List.map_singleton]
    show Placed "comments" (.arr (pushOp (d.entries "comments") (commentOf user text created_at)))
    rw [hpush]
    refine .comments _ fun x hx => ?_
    rcases List.mem_append.mp hx with hx | hx
    · exact hall x hx
    · rw [List.mem_singleton.mp hx]
      exact hok

/-- Every update of the API keeps documents convertible. -/
theorem convertible_update [Bson] {l : Request} {g : Ghost} {coll : Coll} {filter : Filter}
    {update : Update} (hallows : g.allows l (.update_one coll filter update))
    (happly : update.apply d = some d')
    (h : Convertible d) : Convertible d' := by
  cases coll with
  | users =>
    obtain ⟨data, rfl⟩ := hallows
    rw [Update.apply_set] at happly
    rw [← Option.some.inj happly]
    exact h.setAll (placed_update_data data)
  | posts => exact h.postUpdate hallows happly
  | messages =>
    have hupdate : update = { set := [("is_read", .bool true)] } := hallows
    rw [hupdate, Update.apply_set] at happly
    rw [← Option.some.inj happly]
    apply h.setAll
    intro x hx
    rw [List.mem_singleton.mp hx]
    exact ⟨by decide, .other (by decide) rfl⟩

end Updates

/-- From the first documents on, every document is convertible. -/
theorem convertible_run [Bson] {ids : Coll → Nat → ObjectId} {date : Nat → Nat} {db : Db}
    (hinit : mongo_init ids date = some db) {as : List Action} {s : State}
    (hrun : Runs.exec step (State.init db) as = some s) :
    ∀ c, ∀ d ∈ s.shared.db.docs c, Convertible d := by
  have hboth : (∀ task ∈ s.tasks, KeepsProtocol task) ∧
      ∀ c, ∀ d ∈ s.shared.db.docs c, Convertible d := by
    refine Runs.exec_preserves (I := fun s : State => (∀ task ∈ s.tasks, KeepsProtocol task) ∧
      ∀ c, ∀ d ∈ s.shared.db.docs c, Convertible d) ?_ ?_ hrun
    · intro s a s' ⟨htasks, hdocs⟩ hstep
      refine ⟨keepsProtocol_step htasks hstep, ?_⟩
      exact forall_docs_step (P := fun _ => Convertible)
        (fun _ _ _ _ id hallows => convertible_insert id hallows)
        (fun _ _ _ _ _ _ _ hallows happly hd => convertible_update hallows happly hd)
        htasks hstep hdocs
    · exact ⟨fun _ htask => absurd htask List.not_mem_nil, convertible_init hinit⟩
  exact hboth.2

/-! ## Ids that are returned -/

/-- The text `w` stands for the id `v`: what is looked for by it is what has the id. -/
def Db.Addresses [Bson] (db : Db) (v w : Value) : Prop :=
  ∃ id text, v = .oid id ∧ w = .str text ∧ oid text = .ok id ∧ ∀ c, ∀ d ∈ db.docs c,
    d.get "_id" = some v → findOne (.field "_id" (.oid id)) (db.docs c) = some d

/-- An id and its digits address the same documents. -/
theorem addresses_stringify [Bson] (db : Db) (id : ObjectId) :
    db.Addresses (.oid id) (Value.stringify (.oid id)) := by
  refine ⟨id, id.hex, rfl, rfl, oid_hex id, fun c d hd hid => ?_⟩
  exact Validated.findOne_of_mem (c := db.coll c) hd hid

/-- A field of the converted document. -/
theorem get_stringifyFields (d : Doc) (f : String) :
    Doc.get (Value.stringifyFields d) f = (d.get f).map Value.stringify := by
  rw [Value.stringifyFields_eq_map, Doc.get_map fun _ v => v.stringify]

theorem entries_stringifyFields (d : Doc) (f : String) :
    Doc.entries (Value.stringifyFields d) f = (d.entries f).map Value.stringify := by
  unfold Doc.entries
  rw [get_stringifyFields]
  cases d.get f with
  | none => rfl
  | some v =>
    cases v with
    | arr vs => exact Value.stringifyList_eq_map vs
    | _ => rfl

theorem userOf_stringify (v : Value) : userOf v.stringify = (userOf v).map Value.stringify := by
  cases v with
  | obj comment =>
    show (Doc.get (Value.stringifyFields comment) "user_id").toList = _
    rw [get_stringifyFields, userOf]
    cases Doc.get comment "user_id" <;> rfl
  | _ => rfl

/-- The users that the JSON names are those that the document names. -/
theorem refs_stringify (c : Coll) (d : Doc) :
    refs c (Value.stringifyFields d) = (refs c d).map Value.stringify := by
  have htoList : ∀ f, (Doc.get (Value.stringifyFields d) f).toList =
      (d.get f).toList.map Value.stringify := by
    intro f
    rw [get_stringifyFields]
    cases d.get f <;> rfl
  cases c with
  | users => rfl
  | posts =>
    simp only [refs, htoList, entries_stringifyFields, List.map_append, List.map_flatMap,
      List.flatMap_map]
    congr 2
    funext v
    exact userOf_stringify v
  | messages => simp only [refs, htoList, List.map_append]

/-- What names a user in a convertible document is an id. -/
theorem Convertible.refs_oid {d : Doc} (h : Convertible d) (c : Coll) :
    ∀ v ∈ refs c d, ∃ id, v = .oid id := by
  have hkey : ∀ f ∈ idKeys, ∀ v ∈ (d.get f).toList, ∃ id, v = .oid id := by
    intro f hf v hv
    rw [Option.mem_toList] at hv
    exact (h.get hv).id_inv (.inr hf)
  intro v hv
  cases c with
  | users => cases hv
  | posts =>
    simp only [refs, List.mem_append] at hv
    -- the author, the likes, and the authors of the comments
    rcases hv with (hv | hv) | hv
    · exact hkey "author_id" (by decide) v hv
    · obtain ⟨likes, hlikes⟩ := h.likes
      rw [hlikes] at hv
      obtain ⟨id, -, rfl⟩ := List.mem_map.mp hv
      exact ⟨id, rfl⟩
    · obtain ⟨comments, hcomments, hall⟩ := h.comments
      rw [hcomments] at hv
      obtain ⟨x, hx, hv⟩ := List.mem_flatMap.mp hv
      obtain ⟨comment, hcomment, rfl⟩ := List.mem_map.mp hx
      simp only [userOf, Option.mem_toList] at hv
      exact Value.eq_oid_of_isOid ((hall comment hcomment).user v (Doc.mem_of_get hv))
  | messages =>
    simp only [refs, List.mem_append] at hv
    rcases hv with hv | hv
    · exact hkey "from_user_id" (by decide) v hv
    · exact hkey "to_user_id" (by decide) v hv

/-! ## The conversion -/

/-- **Conversion.** Whatever has been requested since the first documents were there, every document
has a JSON without ids, which differs from it in its ids only and from which it is read back; the
`_id` and the users in it are found by their texts; and converting it again changes nothing. -/
theorem to_json_lossless [Bson] {ids : Coll → Nat → ObjectId} {date : Nat → Nat} {db : Db}
    (hinit : mongo_init ids date = some db) {as : List Action} {s : State}
    (hrun : Runs.exec step (State.init db) as = some s) {c : Coll} {d : Doc}
    (hd : d ∈ s.shared.db.docs c) :
    ∃ json, to_json d = .ok json ∧ Value.oidFreeFields json = true ∧
      json = Value.stringifyFields d ∧ of_json json = .ok d ∧
      (∃ v w, d.get "_id" = some v ∧ Doc.get json "_id" = some w ∧ s.shared.db.Addresses v w) ∧
      List.Forall₂ s.shared.db.Addresses (refs c d) (refs c json) ∧ to_json json = .ok json := by
  have hconvertible := convertible_run hinit hrun c d hd
  have hjson := hconvertible.to_json_eq
  refine ⟨Value.stringifyFields d, hjson, Value.oidFree_stringifyFields d, rfl,
    hconvertible.of_json_eq, ?_, ?_, to_json_to_json hconvertible.nodup hjson⟩
  · obtain ⟨id, hid⟩ := hconvertible.id
    refine ⟨_, _, hid, ?_, addresses_stringify s.shared.db id⟩
    rw [get_stringifyFields, hid]
    rfl
  · rw [refs_stringify, List.forall₂_map_right_iff, List.forall₂_same]
    intro v hv
    obtain ⟨id, rfl⟩ := hconvertible.refs_oid c v hv
    exact addresses_stringify s.shared.db id

open scoped Hex

/-- Jack likes the first post. -/
def likeFirst : List Action :=
  [.request (.like_post (firstIds .posts 0).hex (firstIds .users 9).hex),
    .call 0 (.ok ⟨.ofNat 0, [], [], false⟩)]

theorem to_json_lossless_like : ∃ db s d json, mongo_init firstIds (fun n => n) = some db ∧
    Runs.exec step (State.init db) likeFirst = some s ∧ d ∈ s.shared.db.docs .posts ∧
    (d.entries "likes").length = 3 ∧ to_json d = .ok json ∧ Value.oidFreeFields json = true ∧
    of_json json = .ok d := by
  have hresult : ((mongo_init firstIds fun n => n).bind fun db =>
      (Runs.exec step (State.init db) likeFirst).bind fun s =>
        (s.shared.db.docs .posts).head?.map fun d => (d.entries "likes").length) = some 3 := by
    decide +kernel
  obtain ⟨db, hinit, hresult⟩ := Option.bind_eq_some_iff.mp hresult
  obtain ⟨s, hrun, hresult⟩ := Option.bind_eq_some_iff.mp hresult
  obtain ⟨d, hhead, hlength⟩ := Option.map_eq_some_iff.mp hresult
  have hd : d ∈ s.shared.db.docs .posts := List.mem_of_mem_head? hhead
  obtain ⟨json, hjson, hfree, -, hback, -⟩ := to_json_lossless hinit hrun hd
  exact ⟨db, s, d, json, hinit, hrun, hd, hlength, hjson, hfree, hback⟩

end SocialNetwork.MongoApi

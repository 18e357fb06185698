import SocialNetwork.MongoApi.Network
import SocialNetwork.MongoApi.PayloadTheorems

/-!
# Writes and deeds

What a write does to the document with an id, what is read of a document after each of the API's
updates, and from both that a write does to the network what the deed it stands for does
(`step_of_write`).
-/

namespace SocialNetwork.MongoApi

open DocStore

/-! ## The document with an id -/

namespace Db

variable {db db' : Db} {c : Coll} {id : ObjectId} {d : Doc}

/-- The one document with this id. -/
theorem lookup_eq_some :
    db.lookup c id = some d ↔ d ∈ db.docs c ∧ d.get "_id" = some (.oid id) :=
  ⟨Validated.findOne_id (c := db.coll c), fun h => Validated.findOne_of_mem (c := db.coll c) h.1 h.2⟩

/-- No document has this id. -/
theorem lookup_eq_none : db.lookup c id = none ↔ ∀ d ∈ db.docs c, d.get "_id" ≠ some (.oid id) := by
  rw [Option.eq_none_iff_forall_not_mem]
  constructor
  · intro h d hd hid
    exact h d (lookup_eq_some.mpr ⟨hd, hid⟩)
  · intro h d hd
    obtain ⟨hmem, hid⟩ := lookup_eq_some.mp hd
    exact h d hmem hid

/-- The documents with the id decide what is found. -/
theorem lookup_congr {c' : Coll}
    (h : ∀ d, d.get "_id" = some (.oid id) → (d ∈ db'.docs c' ↔ d ∈ db.docs c)) :
    db'.lookup c' id = db.lookup c id := by
  apply Option.ext
  intro d
  show db'.lookup c' id = some d ↔ db.lookup c id = some d
  rw [lookup_eq_some, lookup_eq_some]
  exact and_congr_left (h d)

/-- An insertion adds the document with a new id. -/
theorem lookup_insert_one {doc : Doc} (h : db.insert_one c id doc = some db') :
    db.lookup c id = none ∧ ∀ c' id', db'.lookup c' id' =
      if c' = c ∧ id' = id then some (("_id", .oid id) :: doc) else db.lookup c' id' := by
  obtain ⟨hdocs, hother, -⟩ := docs_insert_one h
  have hnew : (("_id", .oid id) :: doc : Doc) ∈ db'.docs c := by
    rw [hdocs]
    exact List.mem_append_right _ List.mem_cons_self
  have hid : Doc.get (("_id", .oid id) :: doc) "_id" = some (.oid id) := rfl
  refine ⟨?_, fun c' id' => ?_⟩
  · rw [lookup_eq_none]
    intro d hd hd'
    -- the unique index on `_id` has taken the document, so its id was free
    have hnodup := (db'.coll c).nodup
    have hcoll : (db'.coll c).docs = db.docs c ++ [("_id", .oid id) :: doc] := hdocs
    rw [hcoll, List.map_append, List.map_singleton, ← List.concat_eq_append,
      List.nodup_concat] at hnodup
    exact hnodup.1 (List.mem_map.mpr ⟨d, hd, hd'.trans hid.symm⟩)
  · split_ifs with hhere
    · obtain ⟨rfl, rfl⟩ := hhere
      exact lookup_eq_some.mpr ⟨hnew, hid⟩
    · apply lookup_congr
      intro d hd
      by_cases hc : c' = c
      · subst hc
        rw [hdocs, List.mem_append, List.mem_singleton]
        refine or_iff_left ?_
        rintro rfl
        exact hhere ⟨rfl, Value.oid.inj (Option.some.inj (hd.symm.trans hid))⟩
      · rw [hother c' hc]

/-- An update that has matched changes the document with its id. -/
theorem lookup_update_one {update : Update}
    (h : db.update_one c (.field "_id" (.oid id)) update = some (1, db')) :
    ∃ d d', db.lookup c id = some d ∧ update.apply d = some d' ∧ d' ∈ db'.docs c ∧
      ∀ c' id', db'.lookup c' id' = if c' = c ∧ id' = id then some d' else db.lookup c' id' := by
  obtain ⟨hdocs, hother, -⟩ := docs_update_one h
  obtain ⟨l₁, d, l₂, d', hbefore, hholds, happly, -, hafter, hsame⟩ | ⟨-, hn, -⟩ := hdocs
  · have hmem : d ∈ db.docs c := by
      rw [hbefore]
      exact Lists.mem_middle.mpr (.inl rfl)
    have hmem' : d' ∈ db'.docs c := by
      rw [hafter]
      exact Lists.mem_middle.mpr (.inl rfl)
    have hid : d.get "_id" = some (.oid id) := Validated.id_of_holds (c := db.coll c) hmem hholds
    refine ⟨d, d', lookup_eq_some.mpr ⟨hmem, hid⟩, happly, hmem', fun c' id' => ?_⟩
    split_ifs with hhere
    · obtain ⟨rfl, rfl⟩ := hhere
      exact lookup_eq_some.mpr ⟨hmem', hsame.trans hid⟩
    · apply lookup_congr
      intro x hx
      by_cases hc : c' = c
      · subst hc
        -- neither the old document nor the new one has the other id
        have hne : ∀ y : Doc, y.get "_id" = some (.oid id) → x ≠ y := by
          rintro y hy rfl
          exact hhere ⟨rfl, Value.oid.inj (Option.some.inj (hx.symm.trans hy))⟩
        rw [hbefore, hafter, Lists.mem_middle, Lists.mem_middle]
        exact or_congr (iff_of_false (hne d' (hsame.trans hid)) (hne d hid)) Iff.rfl
      · rw [hother c' hc]
  · cases hn

/-- A deletion that has matched removes the document with its id. -/
theorem lookup_delete_one (h : (db.delete_one c (.field "_id" (.oid id))).1 ≠ 0) :
    (∃ d, db.lookup c id = some d) ∧ ∀ c' id',
      (db.delete_one c (.field "_id" (.oid id))).2.lookup c' id' =
        if c' = c ∧ id' = id then none else db.lookup c' id' := by
  obtain ⟨hdocs, hother, -⟩ := docs_delete_one db c (.field "_id" (.oid id))
  obtain ⟨l₁, d, l₂, hbefore, hfound, -, -, hafter⟩ | ⟨-, -, hn, -⟩ := hdocs
  · obtain ⟨-, hid⟩ := lookup_eq_some.mp hfound
    have hnodup := (db.coll c).nodup
    have hcoll : (db.coll c).docs = l₁ ++ d :: l₂ := hbefore
    rw [hcoll, List.map_append, List.map_cons] at hnodup
    -- no other document has the id
    have hnot := (List.nodup_cons.mp (List.nodup_middle.mp hnodup)).1
    rw [← List.map_append] at hnot
    refine ⟨⟨d, hfound⟩, fun c' id' => ?_⟩
    split_ifs with hhere
    · obtain ⟨rfl, rfl⟩ := hhere
      rw [lookup_eq_none, hafter]
      intro x hx hx'
      exact hnot (List.mem_map.mpr ⟨x, hx, hx'.trans hid.symm⟩)
    · apply lookup_congr
      intro x hx
      by_cases hc : c' = c
      · subst hc
        rw [hafter, hbefore, Lists.mem_middle]
        refine (or_iff_right ?_).symm
        rintro rfl
        exact hhere ⟨rfl, Value.oid.inj (Option.some.inj (hx.symm.trans hid))⟩
      · rw [hother c' hc]
  · exact absurd hn h

end Db

/-! ## What is read of a document after an update -/

section Documents

variable {d : Doc} {id : ObjectId}

theorem read_strings (xs : List String) : Value.list? Value.str? (strings xs) = some xs :=
  Value.list?_map (g := .str) (fun _ => rfl) xs

/-- The document of a registration stands for the new user. -/
theorem User.of?_new (id : ObjectId) (user : UserCreate) (created_at : Nat) :
    User.of? (("_id", .oid id) :: (user.model_dump ++ [("created_at", .date created_at)])) =
      some (User.new user created_at) := by
  refine User.of?_eq_some.mpr ⟨rfl, rfl, rfl, rfl, rfl, rfl, ?_, read_strings user.interests⟩
  show Value.int? ((user.age.map .int).getD .null) = user.age
  cases user.age <;> rfl

/-- The document of a new post stands for it. -/
theorem Post.of?_new (id author : ObjectId) (post : PostCreate) (created_at : Nat) :
    Post.of? (("_id", .oid id) :: postDoc author post created_at) =
      some (Post.new author post created_at) :=
  Post.of?_eq_some.mpr ⟨rfl, rfl, read_strings post.tags, rfl, rfl, rfl⟩

/-- The document of a new message stands for it. -/
theorem Message.of?_new (id from_ to_ : ObjectId) (message : MessageCreate) (created_at : Nat) :
    Message.of? (("_id", .oid id) :: messageDoc from_ to_ message created_at) =
      some (Message.new from_ to_ message.text created_at) :=
  Message.of?_eq_some.mpr ⟨rfl, rfl, rfl, rfl, rfl⟩

/-- The fields of an update. -/
theorem get_update_data (data : UserUpdate) {f : String} {o : Option Value}
    (h : ∀ v, (f, v) ∈ data.update_data ↔ o = some v) : data.update_data.get f = o := by
  apply Option.ext
  intro v
  show data.update_data.get f = some v ↔ o = some v
  rw [← h v]
  exact ⟨Doc.mem_of_get, fun hv => Doc.get_of_mem (update_data_keys data).1 hv⟩

/-- `$set` of the fields of a `PATCH` is the edit. -/
theorem User.of?_edit {u : User} (h : User.of? d = some u) (data : UserUpdate) :
    User.of? (d.setAll data.update_data) = some (u.edit data) := by
  have hread := fun f {α : Type} (p : Value → Option α) =>
    Doc.read_setAll (d := d) (f := f) (p := p) (update_data_keys data).1
  have hfirst : data.update_data.get "first_name" = data.first_name.map .str :=
    get_update_data data fun v => by rw [mem_update_data]; simp
  have hlast : data.update_data.get "last_name" = data.last_name.map .str :=
    get_update_data data fun v => by rw [mem_update_data]; simp
  have hage : data.update_data.get "age" = data.age.map .int :=
    get_update_data data fun v => by rw [mem_update_data]; simp
  have hinterests : data.update_data.get "interests" = data.interests.map strings :=
    get_update_data data fun v => by rw [mem_update_data]; simp
  -- the other fields are not among those of an update
  have hother : ∀ f, f ∉ ["first_name", "last_name", "age", "interests"] →
      data.update_data.get f = none := by
    intro f hf
    apply get_update_data
    intro v
    rw [mem_update_data]
    simp only [List.mem_cons, List.not_mem_nil, or_false, not_or] at hf
    simp [hf.1, hf.2.1, hf.2.2.1, hf.2.2.2]
  obtain ⟨h₁, h₂, h₃, h₄, h₅, h₆, h₇, h₈⟩ := User.of?_eq_some.mp h
  refine User.of?_eq_some.mpr ⟨?_, ?_, ?_, ?_, ?_, ?_, ?_, ?_⟩
  · rw [hread, hother "login" (by decide)]
    exact h₁
  · rw [hread, hother "email" (by decide)]
    exact h₂
  · rw [hread, hother "password" (by decide)]
    exact h₃
  · rw [hread, hfirst]
    cases hdata : data.first_name with
    | none => simpa [User.edit, hdata] using h₄
    | some s => simp [User.edit, hdata, Value.str?]
  · rw [hread, hlast]
    cases hdata : data.last_name with
    | none => simpa [User.edit, hdata] using h₅
    | some s => simp [User.edit, hdata, Value.str?]
  · rw [hread, hother "created_at" (by decide)]
    exact h₆
  · rw [hread, hage]
    cases hdata : data.age with
    | none => simpa [User.edit, hdata] using h₇
    | some n => simp [User.edit, hdata, Value.int?]
  · rw [hread, hinterests]
    cases hdata : data.interests with
    | none => simpa [User.edit, hdata] using h₈
    | some xs => simp [User.edit, hdata, read_strings]

/-- A field of a post that is set changes that field of the post only. -/
theorem Post.of?_set_likes {p : Post} (h : Post.of? d = some p) (likes : List ObjectId) :
    Post.of? (d.set "likes" (.arr (likes.map .oid))) = some { p with likes := likes } := by
  obtain ⟨h₁, h₂, h₃, h₄, h₅, h₆⟩ := Post.of?_eq_some.mp h
  refine Post.of?_eq_some.mpr ⟨?_, ?_, ?_, ?_, ?_, ?_⟩
  case refine_4 =>
    rw [Doc.read_set_self]
    exact Value.list?_map (g := .oid) (fun _ => rfl) likes
  all_goals
    rw [Doc.read_set_of_ne _ (by decide)]
    assumption

theorem Post.of?_set_comments {p : Post} (h : Post.of? d = some p) {vs : List Value}
    {comments : List Comment} (hvs : Value.list? Comment.of? (.arr vs) = some comments) :
    Post.of? (d.set "comments" (.arr vs)) = some { p with comments := comments } := by
  obtain ⟨h₁, h₂, h₃, h₄, h₅, h₆⟩ := Post.of?_eq_some.mp h
  refine Post.of?_eq_some.mpr ⟨?_, ?_, ?_, ?_, ?_, ?_⟩
  case refine_5 =>
    rw [Doc.read_set_self]
    exact hvs
  all_goals
    rw [Doc.read_set_of_ne _ (by decide)]
    assumption

/-- The likes of a post, as they are stored. -/
theorem entries_likes {p : Post} (h : Post.of? d = some p) :
    d.entries "likes" = p.likes.map .oid := by
  obtain ⟨v, hv, hlikes⟩ := Doc.read_eq_some.mp (Post.of?_eq_some.mp h).2.2.2.1
  unfold Doc.entries
  rw [hv, Value.eq_map_of_list? Value.eq_oid_of_oid? hlikes]

theorem list?_entries_comments {p : Post} (h : Post.of? d = some p) :
    Value.list? Comment.of? (.arr (d.entries "comments")) = some p.comments := by
  obtain ⟨v, hv, hcomments⟩ := Doc.read_eq_some.mp (Post.of?_eq_some.mp h).2.2.2.2.1
  unfold Doc.entries
  rw [hv]
  cases v with
  | arr vs => exact hcomments
  | _ => cases hcomments

/-- `$addToSet` of a user is the like. -/
theorem Post.of?_like {p : Post} {d' : Doc} {user : ObjectId} (h : Post.of? d = some p)
    (hd' : ({ addToSet := [("likes", .oid user)] } : Update).apply d = some d') :
    Post.of? d' = some (p.like user) := by
  rw [Update.apply_addToSet] at hd'
  rw [arrayField_eq_some hd', entries_likes h]
  show Post.of? (d.set "likes" (.arr (addToSetOp (p.likes.map .oid) (.oid user)))) = _
  rw [addToSetOp_map Value.oid_injective]
  exact Post.of?_set_likes h _

/-- `$pull` of a user is the unlike. -/
theorem Post.of?_unlike {p : Post} {d' : Doc} {user : ObjectId} (h : Post.of? d = some p)
    (hd' : ({ pull := [("likes", .oid user)] } : Update).apply d = some d') :
    Post.of? d' = some (p.unlike user) := by
  rw [Update.apply_pull] at hd'
  -- the post has likes, so `$pull` is an update of the array
  obtain ⟨v, hv, -⟩ := Doc.read_eq_some.mp (Post.of?_eq_some.mp h).2.2.2.1
  have harray : arrayField pullOp d ("likes", .oid user) = some d' := by
    unfold pullField at hd'
    rw [show d.get ("likes", Value.oid user).1 = some v from hv] at hd'
    exact hd'
  rw [arrayField_eq_some harray, entries_likes h]
  show Post.of? (d.set "likes" (.arr (pullOp (p.likes.map .oid) (.oid user)))) = _
  rw [pullOp_map Value.oid_injective]
  exact Post.of?_set_likes h _

/-- `$push` of a comment is the comment. -/
theorem Post.of?_comment {p : Post} {d' : Doc} {user : ObjectId} {text : String} {created_at : Nat}
    (h : Post.of? d = some p)
    (hd' : ({ push := [("comments", commentOf user text created_at)] } : Update).apply d = some d') :
    Post.of? d' = some (p.comment ⟨user, text, created_at⟩) := by
  rw [Update.apply_push] at hd'
  rw [arrayField_eq_some hd']
  apply Post.of?_set_comments h
  have hcomment : Comment.of? (commentOf user text created_at) = some ⟨user, text, created_at⟩ := rfl
  show Value.list? Comment.of? (.arr (d.entries "comments" ++ [commentOf user text created_at])) = _
  rw [Value.list?_append hcomment, list?_entries_comments h]
  rfl

/-- `$set` of `is_read` marks the message as read. -/
theorem Message.of?_markRead {m : Message} (h : Message.of? d = some m) :
    Message.of? (d.setAll [("is_read", .bool true)]) = some m.markRead := by
  obtain ⟨h₁, h₂, h₃, h₄, h₅⟩ := Message.of?_eq_some.mp h
  rw [Doc.setAll_cons, Doc.setAll_nil]
  refine Message.of?_eq_some.mpr ⟨?_, ?_, ?_, ?_, ?_⟩
  case refine_4 =>
    rw [Doc.read_set_self]
    rfl
  all_goals
    rw [Doc.read_set_of_ne _ (by decide)]
    assumption

/-- What the validator of users demands of a document. -/
theorem User.valid_of? {u : User} (hholds : (schema .users).holds (.obj d) = true)
    (h : User.of? d = some u) : u.Valid := by
  obtain ⟨hlogin, hemail, hpassword, -, -, -, hage, -⟩ := User.of?_eq_some.mp h
  have htext : ∀ (f : String) (check : String → Bool) {s : String},
      (f, Schema.string check) ∈ (schema .users).properties → d.read f Value.str? = some s →
      check s = true := by
    intro f check s hf hread
    obtain ⟨v, hv, hcheck⟩ := Schema.holds_of_read hholds hf hread
    cases v with
    | str s' =>
      rw [← Option.some.inj hv]
      exact hcheck
    | _ => cases hv
  refine ⟨htext "login" _ (by simp [schema, Schema.properties]) hlogin,
    htext "email" _ (by simp [schema, Schema.properties]) hemail, ?_, ?_⟩
  · have hlength := htext "password" (fun s => 6 ≤ s.length)
      (by simp [schema, Schema.properties]) hpassword
    exact of_decide_eq_true hlength
  · intro n hn
    rw [← hage] at hn
    obtain ⟨v, hv, hrange⟩ := Schema.holds_of_read hholds (f := "age") (s := .int 0 120) (by simp) hn
    cases v with
    | int m =>
      rw [← Option.some.inj hv]
      simpa [Schema.holds] using hrange
    | _ => cases hv

end Documents

/-! ## Every document is read -/

section Reading

variable {db : Db} {d : Doc}

/-- Every stored user is one of the abstract network. -/
theorem exists_user (hd : d ∈ db.docs .users) : ∃ u, User.of? d = some u := by
  have hread := fun f {α : Type} {s : Schema} {p : Value → Option α} =>
    Schema.exists_read (f := f) (s := s) (p := p) (db.users.valid d hd)
  obtain ⟨login, h₁⟩ := hread "login" (by decide) (by simp) (Schema.fits_string loginPattern)
  obtain ⟨email, h₂⟩ := hread "email" (by decide) (by simp) (Schema.fits_string emailPattern)
  obtain ⟨password, h₃⟩ := hread "password" (by decide) (by simp)
    (Schema.fits_string fun s => 6 ≤ s.length)
  obtain ⟨first_name, h₄⟩ := hread "first_name" (by decide) (by simp)
    Schema.fits_text
  obtain ⟨last_name, h₅⟩ := hread "last_name" (by decide) (by simp)
    Schema.fits_text
  obtain ⟨created_at, h₆⟩ := hread "created_at" (by decide) (by simp) Schema.fits_date
  exact ⟨⟨login, email, password, first_name, last_name, _, _, created_at⟩,
    User.of?_eq_some.mpr ⟨h₁, h₂, h₃, h₄, h₅, h₆, rfl, rfl⟩⟩

theorem fits_comment : (Schema.object ["user_id", "text", "created_at"]
    [("user_id", .objectId), ("text", .text), ("created_at", .date)]).Fits Comment.of? := by
  intro v hv
  cases v with
  | obj c =>
    obtain ⟨user_id, h₁⟩ := Schema.exists_read (f := "user_id") hv (by decide) (by simp)
      Schema.fits_objectId
    obtain ⟨text, h₂⟩ := Schema.exists_read (f := "text") hv (by decide) (by simp)
      Schema.fits_text
    obtain ⟨created_at, h₃⟩ := Schema.exists_read (f := "created_at") hv (by decide) (by simp)
      Schema.fits_date
    simp [Comment.of?, h₁, h₂, h₃]
  | _ => cases hv

/-- Every stored post is one of the abstract network. -/
theorem exists_post (hd : d ∈ db.docs .posts) : ∃ p, Post.of? d = some p := by
  have hread := fun f {α : Type} {s : Schema} {p : Value → Option α} =>
    Schema.exists_read (f := f) (s := s) (p := p) (db.posts.valid d hd)
  obtain ⟨author_id, h₁⟩ := hread "author_id" (by decide) (by simp) Schema.fits_objectId
  obtain ⟨content, h₂⟩ := hread "content" (by decide) (by simp) Schema.fits_text
  obtain ⟨tags, h₃⟩ := hread "tags" (by decide) (by simp) Schema.fits_text.array
  obtain ⟨likes, h₄⟩ := hread "likes" (by decide) (by simp) Schema.fits_objectId.array
  obtain ⟨comments, h₅⟩ := hread "comments" (by decide) (by simp) fits_comment.array
  obtain ⟨created_at, h₆⟩ := hread "created_at" (by decide) (by simp) Schema.fits_date
  exact ⟨⟨author_id, content, tags, likes, comments, created_at⟩,
    Post.of?_eq_some.mpr ⟨h₁, h₂, h₃, h₄, h₅, h₆⟩⟩

/-- Every stored message is one of the abstract network. -/
theorem exists_message (hd : d ∈ db.docs .messages) : ∃ m, Message.of? d = some m := by
  have hread := fun f {α : Type} {s : Schema} {p : Value → Option α} =>
    Schema.exists_read (f := f) (s := s) (p := p) (db.messages.valid d hd)
  obtain ⟨from_user_id, h₁⟩ := hread "from_user_id" (by decide) (by simp) Schema.fits_objectId
  obtain ⟨to_user_id, h₂⟩ := hread "to_user_id" (by decide) (by simp) Schema.fits_objectId
  obtain ⟨text, h₃⟩ := hread "text" (by decide) (by simp) Schema.fits_text
  obtain ⟨is_read, h₄⟩ := hread "is_read" (by decide) (by simp) Schema.fits_bool
  obtain ⟨created_at, h₅⟩ := hread "created_at" (by decide) (by simp) Schema.fits_date
  exact ⟨⟨from_user_id, to_user_id, text, is_read, created_at⟩,
    Message.of?_eq_some.mpr ⟨h₁, h₂, h₃, h₄, h₅⟩⟩

end Reading

/-! ## A write does the deed -/

/-- The network with another document under an id. -/
def Network.set (net : Network) (c : Coll) (id : ObjectId) (doc : Option Doc)
    (issued : List ObjectId) : Network :=
  match c with
  | .users =>
    { net with users := Function.update net.users id (doc.bind User.of?), issued := issued }
  | .posts =>
    { net with posts := Function.update net.posts id (doc.bind Post.of?), issued := issued }
  | .messages =>
    { net with messages := Function.update net.messages id (doc.bind Message.of?), issued := issued }

section Writes

variable {db db' : Db} {c : Coll} {id : ObjectId}

/-- One document has changed. -/
theorem network_set {doc : Option Doc} (h : ∀ c' id', db'.lookup c' id' =
    if c' = c ∧ id' = id then doc else db.lookup c' id') :
    db'.network = db.network.set c id doc db'.issued := by
  have hsame : ∀ {α : Type} {of? : Doc → Option α} c', c' ≠ c →
      (fun id' => (db'.lookup c' id').bind of?) = fun id' => (db.lookup c' id').bind of? := by
    intro α of? c' hc
    funext id'
    rw [h, if_neg fun hhere => hc hhere.1]
  have hupdate : ∀ {α : Type} {of? : Doc → Option α},
      (fun id' => (db'.lookup c id').bind of?) =
        Function.update (fun id' => (db.lookup c id').bind of?) id (doc.bind of?) := by
    intro α of?
    funext id'
    rw [h, Function.update_apply]
    by_cases hid : id' = id
    · rw [if_pos ⟨rfl, hid⟩, if_pos hid]
    · rw [if_neg fun hhere => hid hhere.2, if_neg hid]
  unfold Db.network Network.set
  cases c
  · rw [hupdate, hsame .posts (by decide), hsame .messages (by decide)]
  · rw [hupdate, hsame .users (by decide), hsame .messages (by decide)]
  · rw [hupdate, hsame .users (by decide), hsame .posts (by decide)]

/-- A write that inserts. -/
theorem write_insert_one {doc : Doc} (h : db.write id (.insert_one c doc) = some db') :
    id ∉ db.issued ∧ db'.issued = db.issued ++ [id] ∧ db.lookup c id = none ∧
      (("_id", .oid id) :: doc) ∈ db'.docs c ∧
      db'.network = db.network.set c id (some (("_id", .oid id) :: doc)) (db.issued ++ [id]) := by
  simp only [Db.write] at h
  split_ifs at h with hnew
  obtain ⟨hnone, hlookup⟩ := Db.lookup_insert_one h
  obtain ⟨hdocs, -, hissued⟩ := Db.docs_insert_one h
  refine ⟨hnew, hissued, hnone, ?_, ?_⟩
  · rw [hdocs]
    exact List.mem_append_right _ List.mem_cons_self
  · rw [← hissued]
    exact network_set hlookup

/-- A write that updates. -/
theorem write_update_one {update : Update}
    (h : db.write id (.update_one c (.field "_id" (.oid id)) update) = some db') :
    ∃ d d', db.lookup c id = some d ∧ update.apply d = some d' ∧ d' ∈ db'.docs c ∧
      db'.network = db.network.set c id (some d') db.issued := by
  simp only [Db.write] at h
  split at h
  · next db₁ hupdate =>
    cases h
    obtain ⟨d, d', hd, hd', hmem, hlookup⟩ := Db.lookup_update_one hupdate
    refine ⟨d, d', hd, hd', hmem, ?_⟩
    rw [← (Db.docs_update_one hupdate).2.2]
    exact network_set hlookup
  · cases h

/-- A write that deletes. -/
theorem write_delete_one (h : db.write id (.delete_one c (.field "_id" (.oid id))) = some db') :
    (∃ d, db.lookup c id = some d) ∧ db'.network = db.network.set c id none db.issued := by
  simp only [Db.write] at h
  split_ifs at h with hn
  obtain ⟨hfound, hlookup⟩ := Db.lookup_delete_one hn
  rw [← Option.some.inj h, ← (Db.docs_delete_one db c _).2.2]
  exact ⟨hfound, network_set hlookup⟩

/-- What the network has under an id is read of the document with it. -/
theorem network_users {d : Doc} (h : db.lookup .users id = some d) :
    ∃ u, User.of? d = some u ∧ db.network.users id = some u := by
  obtain ⟨u, hu⟩ := exists_user (Db.lookup_eq_some.mp h).1
  exact ⟨u, hu, by rw [← hu]; exact congrArg (Option.bind · User.of?) h⟩

theorem network_posts {d : Doc} (h : db.lookup .posts id = some d) :
    ∃ p, Post.of? d = some p ∧ db.network.posts id = some p := by
  obtain ⟨p, hp⟩ := exists_post (Db.lookup_eq_some.mp h).1
  exact ⟨p, hp, by rw [← hp]; exact congrArg (Option.bind · Post.of?) h⟩

theorem network_messages {d : Doc} (h : db.lookup .messages id = some d) :
    ∃ m, Message.of? d = some m ∧ db.network.messages id = some m := by
  obtain ⟨m, hm⟩ := exists_message (Db.lookup_eq_some.mp h).1
  exact ⟨m, hm, by rw [← hm]; exact congrArg (Option.bind · Message.of?) h⟩

/-- An update of a post that is a function on posts. -/
theorem step_of_update_post {update : Update} {f : Post → Post}
    (h : db.write id (.update_one .posts (.field "_id" (.oid id)) update) = some db')
    (hf : ∀ d d' p, Post.of? d = some p → update.apply d = some d' → Post.of? d' = some (f p)) :
    ((db.network.posts id).map fun p =>
      { db.network with posts := Function.update db.network.posts id (some (f p)) }) =
        some db'.network := by
  obtain ⟨d, d', hd, happly, -, hnetwork⟩ := write_update_one h
  obtain ⟨p, hp, hpost⟩ := network_posts hd
  rw [hpost, hnetwork, Option.map_some, ← hf d d' p hp happly]
  rfl

/-- **Writes.** The call of a deed does to the network what the deed does. -/
theorem step_of_write {deed : Deed} (h : db.write id (deed.call id) = some db') :
    db.network.step id deed = some db'.network := by
  cases deed with
  | register user created_at =>
    obtain ⟨hnew, -, hnone, hmem, hnetwork⟩ := write_insert_one h
    have huser := User.of?_new id user created_at
    have hfree : db.network.users id = none := congrArg (Option.bind · User.of?) hnone
    -- the validator has accepted the document, so the user is a valid one
    have hvalid := User.valid_of? (db'.users.valid _ hmem) huser
    rw [Network.step, if_pos ⟨hnew, hfree, hvalid⟩, hnetwork, ← huser]
    rfl
  | edit data =>
    obtain ⟨d, d', hd, happly, hmem, hnetwork⟩ := write_update_one h
    obtain ⟨u, hu, huser⟩ := network_users hd
    rw [Update.apply_set] at happly
    cases happly
    have hedit := User.of?_edit hu data
    have hvalid := User.valid_of? (db'.users.valid _ hmem) hedit
    rw [Network.step, huser, Option.bind_some, if_pos hvalid, hnetwork, ← hedit]
    rfl
  | remove =>
    obtain ⟨⟨d, hd⟩, hnetwork⟩ := write_delete_one h
    obtain ⟨u, -, huser⟩ := network_users hd
    rw [Network.step, huser, hnetwork]
    rfl
  | publish author post created_at =>
    obtain ⟨hnew, -, hnone, -, hnetwork⟩ := write_insert_one h
    have hfree : db.network.posts id = none := congrArg (Option.bind · Post.of?) hnone
    rw [Network.step, if_pos ⟨hnew, hfree⟩, hnetwork, ← Post.of?_new id author post created_at]
    rfl
  | like user => exact step_of_update_post h fun _ _ _ => Post.of?_like
  | unlike user => exact step_of_update_post h fun _ _ _ => Post.of?_unlike
  | comment user text created_at => exact step_of_update_post h fun _ _ _ => Post.of?_comment
  | send from_ to_ message created_at =>
    obtain ⟨hnew, -, hnone, -, hnetwork⟩ := write_insert_one h
    have hfree : db.network.messages id = none := congrArg (Option.bind · Message.of?) hnone
    rw [Network.step, if_pos ⟨hnew, hfree⟩, hnetwork,
      ← Message.of?_new id from_ to_ message created_at]
    rfl
  | markRead =>
    obtain ⟨d, d', hd, happly, -, hnetwork⟩ := write_update_one h
    obtain ⟨m, hm, hmessage⟩ := network_messages hd
    rw [Update.apply_set] at happly
    cases happly
    rw [Network.step, hmessage, hnetwork, Option.map_some, ← Message.of?_markRead hm]
    rfl
  | discard =>
    obtain ⟨⟨d, hd⟩, hnetwork⟩ := write_delete_one h
    obtain ⟨m, -, hmessage⟩ := network_messages hd
    rw [Network.step, hmessage, hnetwork]
    rfl

end Writes

end SocialNetwork.MongoApi

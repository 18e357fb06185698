import SocialNetwork.MongoApi.HitTheorems

/-!
# Payloads and the validator of users

`POST /users` inserts the model's dump, with null for an absent `age`, and turns every exception of
the insert into the answer 400. `PATCH` sets the fields that are there, and catches nothing. So the
first one refuses a payload without an `age`, and the second one answers 500 to an invalid field, and
to a valid one where the user's document cannot be read or encoded.
-/

namespace SocialNetwork.MongoApi

open DocStore KeyValue

section Payloads

variable {ω : Choice} {l : Request} {w : World}

/-! ## Mongo and Redis without failures -/

/-- The keys with this beginning are deleted. -/
def World.without (w : World) (prefix_ : String) : World :=
  { w with redis :=
    { w.redis with entries := w.redis.entries.filter fun e => !startsWith prefix_ e.key } }

/-- What a call of a request that is alone answers, with no call failing. -/
def serve (ω : Choice) (l : Request) : (c : Call) → World → World × Except PyError c.Answer
  | .delete_scanned prefix_, w => (w.without prefix_, .ok ())
  | c, w => alone ω l c w

theorem eval_delete_scanned {p : Api Unit} {prefix_ : String} (h : p = cache_delete_prefix prefix_) :
    p.eval (serve ω l) w = (w.without prefix_, .ok ()) := by
  rw [h]
  apply Prog.eval_tryCatch
  exact Prog.eval_perform (Call.delete_scanned prefix_) w

theorem eval_invalidate_posts_cache : invalidate_posts_cache.eval (serve ω l) w =
    ((w.without "posts:").without "stats:", .ok ()) :=
  (Prog.eval_bind (eval_delete_scanned rfl)).trans (eval_delete_scanned rfl)

/-! ## Valid payloads -/

/-- The fields satisfy the validator's constraints on them. -/
def FieldsValid (fs : Doc) : Prop :=
  ∀ x ∈ fs, ∀ s, (x.1, s) ∈ (schema .users).properties → s.holds x.2 = true

/-- The fields that are not `None`. -/
def UserCreate.fields (user : UserCreate) : Doc := user.model_dump.filter fun x => x.2 ≠ .null

/-- A new id for the next document. -/
def Fresh (ω : Choice) (db : Db) : Prop := ω.id ∉ db.issued

/-! ## Which payloads are valid -/

theorem holds_strings (xs : List String) : (Schema.array .text).holds (strings xs) = true := by
  show (xs.map Value.str).all _ = true
  rw [List.all_eq_true]
  intro v hv
  obtain ⟨s, -, rfl⟩ := List.mem_map.mp hv
  rfl

/-- An age of the validator. -/
def AgeOk (age : Option Int) : Prop := ∀ n, age = some n → 0 ≤ n ∧ n ≤ 120

theorem holds_age {n : Int} : (Schema.int 0 120).holds (.int n) = true ↔ 0 ≤ n ∧ n ≤ 120 := by
  show (decide (0 ≤ n) && decide (n ≤ 120)) = true ↔ _
  rw [Bool.and_eq_true, decide_eq_true_eq, decide_eq_true_eq]

/-- The conditions of the validator on a field. -/
theorem property_cases {f : String} {s : Schema} (h : (f, s) ∈ (schema .users).properties) :
    f = "login" ∧ s = .string loginPattern ∨ f = "email" ∧ s = .string emailPattern ∨
      f = "password" ∧ s = .string (fun s => 6 ≤ s.length) ∨ f = "first_name" ∧ s = .text ∨
      f = "last_name" ∧ s = .text ∨ f = "age" ∧ s = .int 0 120 ∨
      f = "interests" ∧ s = .array .text ∨ f = "created_at" ∧ s = .date := by
  simpa [schema, Schema.properties] using h

/-- The fields of a registration that have conditions. -/
theorem fieldsValid_create (user : UserCreate) : FieldsValid user.fields ↔
    loginPattern user.login = true ∧ emailPattern user.email = true ∧ 6 ≤ user.password.length ∧
      AgeOk user.age := by
  have hmem : ∀ {f v}, (f, v) ∈ user.model_dump → v ≠ .null → (f, v) ∈ user.fields := by
    intro f v hv hnull
    exact List.mem_filter.mpr ⟨hv, decide_eq_true hnull⟩
  constructor
  · intro h
    refine ⟨?_, ?_, ?_, fun n hn => ?_⟩
    · exact h ("login", .str user.login) (hmem (by simp [UserCreate.model_dump]) nofun)
        (.string loginPattern) (by simp [schema, Schema.properties])
    · exact h ("email", .str user.email) (hmem (by simp [UserCreate.model_dump]) nofun)
        (.string emailPattern) (by simp [schema, Schema.properties])
    · exact of_decide_eq_true (h ("password", .str user.password)
        (hmem (by simp [UserCreate.model_dump]) nofun)
        (.string fun s => 6 ≤ s.length) (by simp [schema, Schema.properties]))
    · exact holds_age.mp (h ("age", .int n) (hmem (by simp [UserCreate.model_dump, hn]) nofun)
        (.int 0 120) (by simp [schema, Schema.properties]))
  · rintro ⟨hlogin, hemail, hpassword, hage⟩ ⟨f, v⟩ hv s hs
    obtain ⟨hv, hnull⟩ := List.mem_filter.mp hv
    have hne : v ≠ .null := of_decide_eq_true hnull
    simp only [UserCreate.model_dump, List.mem_cons, List.not_mem_nil, or_false, Prod.mk.injEq] at hv
    rcases property_cases hs with ⟨rfl, rfl⟩ | ⟨rfl, rfl⟩ | ⟨rfl, rfl⟩ | ⟨rfl, rfl⟩ | ⟨rfl, rfl⟩ |
      ⟨rfl, rfl⟩ | ⟨rfl, rfl⟩ | ⟨rfl, rfl⟩
    all_goals simp only [String.reduceEq, false_and, true_and, or_false, false_or] at hv
    · rw [hv]
      exact hlogin
    · rw [hv]
      exact hemail
    · rw [hv]
      exact decide_eq_true hpassword
    · rw [hv]
      rfl
    · rw [hv]
      rfl
    -- a field that is null is not among the fields sent
    · cases hn : user.age with
      | none =>
        rw [hn] at hv
        exact absurd hv hne
      | some n =>
        rw [hn] at hv
        rw [hv]
        exact holds_age.mpr (hage n hn)
    · rw [hv]
      exact holds_strings _

/-- The fields of an update. -/
theorem mem_update_data {data : UserUpdate} {f : String} {v : Value} :
    (f, v) ∈ data.update_data ↔
      f = "first_name" ∧ data.first_name.map .str = some v ∨
        f = "last_name" ∧ data.last_name.map .str = some v ∨
        f = "age" ∧ data.age.map .int = some v ∨
        f = "interests" ∧ data.interests.map strings = some v := by
  have hfield : ∀ (g : String) (o : Option Value),
      (o.map fun w => (g, w)) = some (f, v) ↔ f = g ∧ o = some v := by
    intro g o
    cases o with
    | none => exact iff_of_false nofun nofun
    | some w =>
      rw [Option.map_some, Option.some.injEq, Option.some.injEq, Prod.mk.injEq]
      exact and_congr_left' eq_comm
  unfold UserUpdate.update_data
  rw [List.mem_filterMap]
  simp only [List.mem_cons, List.not_mem_nil, or_false, exists_eq_or_imp, exists_eq_left, hfield]

theorem fieldsValid_update (data : UserUpdate) : FieldsValid data.update_data ↔ AgeOk data.age := by
  constructor
  · intro h n hn
    exact holds_age.mp (h ("age", .int n) (mem_update_data.mpr (by simp [hn])) (.int 0 120)
      (by simp [schema, Schema.properties]))
  · rintro hage ⟨f, v⟩ hv s hs
    rw [mem_update_data] at hv
    rcases property_cases hs with ⟨rfl, rfl⟩ | ⟨rfl, rfl⟩ | ⟨rfl, rfl⟩ | ⟨rfl, rfl⟩ | ⟨rfl, rfl⟩ |
      ⟨rfl, rfl⟩ | ⟨rfl, rfl⟩ | ⟨rfl, rfl⟩
    all_goals simp only [String.reduceEq, false_and, true_and, or_false, false_or] at hv
    · obtain ⟨s, -, rfl⟩ := Option.map_eq_some_iff.mp hv
      rfl
    · obtain ⟨s, -, rfl⟩ := Option.map_eq_some_iff.mp hv
      rfl
    · obtain ⟨n, hn, rfl⟩ := Option.map_eq_some_iff.mp hv
      exact holds_age.mpr (hage n hn)
    · obtain ⟨xs, -, rfl⟩ := Option.map_eq_some_iff.mp hv
      exact holds_strings xs

/-- The document of a registration. -/
def userDoc (id : ObjectId) (user : UserCreate) (created_at : Nat) : Doc :=
  ("_id", .oid id) :: (user.model_dump ++ [("created_at", .date created_at)])

/-- The validator takes the document of a valid payload that has an age. -/
theorem holds_userDoc (id : ObjectId) (user : UserCreate) (created_at : Nat) :
    (schema .users).holds (.obj (userDoc id user created_at)) = true ↔
      user.age.isSome = true ∧ FieldsValid user.fields := by
  rw [fieldsValid_create]
  constructor
  · intro h
    have hall := (Schema.holds_object_iff.mp h).2
    have hage := hall ("age", .int 0 120) (by simp) ((user.age.map .int).getD .null) rfl
    have hlogin := hall ("login", .string loginPattern) (by simp) (.str user.login) rfl
    have hemail := hall ("email", .string emailPattern) (by simp) (.str user.email) rfl
    have hpassword := hall ("password", .string fun s => 6 ≤ s.length) (by simp)
      (.str user.password) rfl
    -- an absent age is written as null, which is no int
    cases hn : user.age with
    | none =>
      rw [hn] at hage
      cases hage
    | some n =>
      rw [hn] at hage
      refine ⟨rfl, hlogin, hemail, of_decide_eq_true hpassword, fun m hm => ?_⟩
      cases hm
      exact holds_age.mp hage
  · rintro ⟨hsome, hlogin, hemail, hpassword, hage⟩
    obtain ⟨n, hn⟩ := Option.isSome_iff_exists.mp hsome
    refine Schema.holds_object_iff.mpr ⟨?_, ?_⟩
    · simp only [List.forall_mem_cons]
      exact ⟨rfl, rfl, rfl, rfl, rfl, rfl, nofun⟩
    · rintro ⟨f, s⟩ hs v hv
      rcases property_cases hs with ⟨rfl, rfl⟩ | ⟨rfl, rfl⟩ | ⟨rfl, rfl⟩ | ⟨rfl, rfl⟩ | ⟨rfl, rfl⟩ |
        ⟨rfl, rfl⟩ | ⟨rfl, rfl⟩ | ⟨rfl, rfl⟩
      · rw [← Option.some.inj hv]
        exact hlogin
      · rw [← Option.some.inj hv]
        exact hemail
      · rw [← Option.some.inj hv]
        exact decide_eq_true hpassword
      · rw [← Option.some.inj hv]
        rfl
      · rw [← Option.some.inj hv]
        rfl
      · have hvalue : some ((user.age.map Value.int).getD .null) = some v := hv
        rw [hn] at hvalue
        rw [← Option.some.inj hvalue]
        exact holds_age.mpr (hage n hn)
      · rw [← Option.some.inj hv]
        exact holds_strings _
      · rw [← Option.some.inj hv]
        rfl

/-! ## The two writes -/

/-- The update of a payload sets each field once, and not the id. -/
theorem update_data_keys (data : UserUpdate) :
    (data.update_data.map Prod.fst).Nodup ∧ "_id" ∉ data.update_data.map Prod.fst ∧
      "likes" ∉ data.update_data.map Prod.fst ∧ "comments" ∉ data.update_data.map Prod.fst := by
  have hsub : (data.update_data.map Prod.fst).Sublist
      ["first_name", "last_name", "age", "interests"] := by
    have hthere : ∀ fs : List (String × Option Value),
        ((fs.filterMap fun x => x.2.map fun v => (x.1, v)).map Prod.fst).Sublist
          (fs.map Prod.fst) := by
      intro fs
      induction fs with
      | nil => exact .slnil
      | cons x fs ih =>
        obtain ⟨f, o⟩ := x
        cases o with
        | none => exact ih.cons f
        | some v => exact ih.cons_cons f
    exact hthere _
  refine ⟨List.Nodup.sublist hsub (by decide), fun h => ?_, fun h => ?_, fun h => ?_⟩
  all_goals exact absurd (hsub.subset h) (by decide)

theorem encodable_strings (xs : List String) : (strings xs).encodable = true := by
  show Value.encodableList (xs.map .str) = true
  induction xs with
  | nil => rfl
  | cons x xs ih => exact ih

/-- A valid age can be sent. -/
theorem isInt64_of_ageOk {age : Option Int} (h : AgeOk age) {n : Int} (hn : age = some n) :
    isInt64 n = true := by
  obtain ⟨hlo, hhi⟩ := h n hn
  unfold isInt64
  rw [Bool.and_eq_true, decide_eq_true_eq, decide_eq_true_eq]
  omega

theorem encodable_update_data {data : UserUpdate} (h : AgeOk data.age) :
    (Value.obj data.update_data).encodable = true := by
  have hall : ∀ fs : Doc, (∀ x ∈ fs, x.2.encodable = true) → Value.encodableFields fs = true := by
    intro fs hfs
    induction fs with
    | nil => rfl
    | cons x fs ih =>
      rw [List.forall_mem_cons] at hfs
      exact (Bool.and_eq_true _ _).mpr ⟨hfs.1, ih hfs.2⟩
  apply hall
  rintro ⟨f, v⟩ hv
  rcases mem_update_data.mp hv with ⟨-, hv⟩ | ⟨-, hv⟩ | ⟨-, hv⟩ | ⟨-, hv⟩
  all_goals obtain ⟨x, hx, rfl⟩ := Option.map_eq_some_iff.mp hv
  · rfl
  · rfl
  · exact isInt64_of_ageOk h hx
  · exact encodable_strings x

theorem decodable_strings (xs : List String) : (strings xs).decodable = true := by
  unfold strings
  rw [Value.decodable_arr, List.forall_mem_map]
  exact fun _ _ => rfl

/-- A registration can be read if its date can. -/
theorem decodable_userDoc (id : ObjectId) (user : UserCreate) {created_at : Nat}
    (h : isDate created_at = true) : (Value.obj (userDoc id user created_at)).decodable = true := by
  have hage : ((user.age.map Value.int).getD .null).decodable = true := by cases user.age <;> rfl
  rw [Value.decodable_obj]
  unfold userDoc UserCreate.model_dump
  simp only [List.cons_append, List.nil_append, List.forall_mem_cons]
  exact ⟨rfl, rfl, rfl, rfl, rfl, rfl, hage, decodable_strings _, h, nofun⟩

/-- A field that an update sets can be read, before the update and after it. -/
theorem decodable_of_update_data {data : UserUpdate} {x : String × Value} (hx : x ∈ data.update_data) :
    x.2.decodable = true ∧ ∀ w, (∀ s, (x.1, s) ∈ (schema .users).properties → s.holds w = true) →
      w.decodable = true := by
  have htext : ∀ w, Schema.text.holds w = true → w.decodable = true := by
    intro w hw
    cases w with
    | str s => rfl
    | _ => cases hw
  obtain ⟨f, v⟩ := x
  rcases mem_update_data.mp hx with ⟨rfl, hv⟩ | ⟨rfl, hv⟩ | ⟨rfl, hv⟩ | ⟨rfl, hv⟩
  all_goals obtain ⟨y, -, rfl⟩ := Option.map_eq_some_iff.mp hv
  · exact ⟨rfl, fun w hw => htext w (hw .text (by simp [schema, Schema.properties]))⟩
  · exact ⟨rfl, fun w hw => htext w (hw .text (by simp [schema, Schema.properties]))⟩
  · refine ⟨rfl, fun w hw => ?_⟩
    have hage := hw (.int 0 120) (by simp [schema, Schema.properties])
    cases w with
    | int n => rfl
    | _ => cases hage
  · refine ⟨decodable_strings y, fun w hw => ?_⟩
    have harr := hw (.array .text) (by simp [schema, Schema.properties])
    cases w with
    | arr vs =>
      rw [Schema.holds, List.all_eq_true] at harr
      exact Value.decodable_arr.mpr fun v hv => htext v (harr v hv)
    | _ => cases harr

/-- An insert of a registration succeeds just if the payload is valid and has an age. -/
theorem insert_userDoc (hfresh : Fresh ω w.db) (user : UserCreate) :
    (w.db.insert_one .users ω.id
      (user.model_dump ++ [("created_at", .date w.now)])).isSome = true ↔
      user.age.isSome = true ∧ FieldsValid user.fields := by
  have hvalid : ((w.db.coll .users).insertOne ω.id
      (user.model_dump ++ [("created_at", .date w.now)])).isSome = true ↔
      user.age.isSome = true ∧ FieldsValid user.fields := by
    rw [Validated.insertOne_isSome fun d hd hid => hfresh (Db.mem_issued (c := .users) hd hid)]
    exact holds_userDoc ω.id user w.now
  unfold Db.insert_one
  split_ifs with hencodable
  · rw [Option.isSome_map, Option.isSome_attach, hvalid]
  · refine iff_of_false Bool.false_ne_true fun h => hencodable ?_
    obtain ⟨n, hn⟩ := Option.isSome_iff_exists.mp h.1
    have hage := isInt64_of_ageOk ((fieldsValid_create user).mp h.2).2.2.2 hn
    show (((user.age.map Value.int).getD .null).encodable &&
      ((strings user.interests).encodable && true)) = true
    rw [encodable_strings, hn, Bool.and_true, Bool.and_true]
    exact hage

/-- The fields of the payload are those of the document. -/
theorem get_userDoc {id : ObjectId} {user : UserCreate} {created_at : Nat} {y : String × Value}
    (hy : y ∈ user.fields) : (userDoc id user created_at).get y.1 = some y.2 := by
  have hmem := List.mem_of_mem_filter hy
  obtain ⟨f, v⟩ := y
  simp only [UserCreate.model_dump, List.mem_cons, List.not_mem_nil, or_false, Prod.mk.injEq] at hmem
  rcases hmem with ⟨rfl, rfl⟩ | ⟨rfl, rfl⟩ | ⟨rfl, rfl⟩ | ⟨rfl, rfl⟩ | ⟨rfl, rfl⟩ | ⟨rfl, rfl⟩ |
    ⟨rfl, rfl⟩ <;> rfl

/-- The update of a user sets the fields of a valid payload, and is refused otherwise. -/
theorem update_user_doc {id : ObjectId} {doc : Doc} (data : UserUpdate)
    (hfound : findOne (.field "_id" (.oid id)) (w.db.docs .users) = some doc) :
    (FieldsValid data.update_data → ∃ db,
      w.db.update_one .users (.field "_id" (.oid id)) { set := data.update_data } = some (1, db) ∧
        findOne (.field "_id" (.oid id)) (db.docs .users) = some (doc.setAll data.update_data)) ∧
    (¬ FieldsValid data.update_data →
      w.db.update_one .users (.field "_id" (.oid id)) { set := data.update_data } = none) := by
  obtain ⟨hnodup, hid, -, -⟩ := update_data_keys data
  obtain ⟨hmem, hget⟩ := Validated.findOne_id (c := w.db.users) hfound
  have hholds : (schema .users).holds (.obj (doc.setAll data.update_data)) = true ↔
      FieldsValid data.update_data :=
    Schema.holds_setAll_iff hnodup (w.db.users.valid doc hmem)
  have hset := Validated.updateOne_set (c := w.db.users) hfound hid
  constructor
  · intro hvalid
    rw [if_pos (hholds.mpr hvalid)] at hset
    obtain ⟨l₁, l₂, c', -, -, hupdate, hdocs⟩ := hset
    have hencodable : ((Filter.field "_id" (.oid id)).encodable &&
        (Value.obj data.update_data).encodable) = true := by
      rw [encodable_update_data ((fieldsValid_update data).mp hvalid)]
      rfl
    have hcoll : (w.db.coll .users).updateOne (.field "_id" (.oid id))
        { set := data.update_data } = some (1, c') := hupdate
    refine ⟨w.db.setColl [] .users c' (w.db.idsIn_updateOne hcoll), ?_, ?_⟩
    · rw [Db.update_one, if_pos hencodable]
      exact Option.map_eq_some_iff.mpr ⟨⟨(1, c'), hcoll⟩, Option.mem_attach _ _, rfl⟩
    · refine Validated.findOne_of_mem (c := c') ?_ ?_
      · rw [hdocs]
        exact List.mem_append_right _ List.mem_cons_self
      · rw [Doc.get_setAll_of_notMem doc hid, hget]
  -- the validator refuses the document that the update makes
  · intro hinvalid
    rw [if_neg (mt hholds.mp hinvalid)] at hset
    unfold Db.update_one
    have hnone : (w.db.coll .users).updateOne (.field "_id" (.oid id))
        { set := data.update_data } = none := hset
    split_ifs
    · rw [Option.map_eq_none_iff, Option.attach_eq_none_iff]
      exact hnone
    · rfl

/-- The insert of a new document, by its outcome. -/
theorem serve_insert {l : Request} {coll : Coll} {doc : Doc} (hfresh : Fresh ω w.db) :
    serve ω l (.insert_one coll doc) w =
      match w.db.insert_one coll ω.id doc with
      | some db => ({ w with db := db }, .ok ω.id)
      | none => (w, .error (refusal doc)) := by
  show alone ω l (.insert_one coll doc) w = _
  simp only [alone, execute, if_neg hfresh]
  cases w.db.insert_one coll ω.id doc <;> rfl

/-- What an update does, by its outcome. -/
theorem serve_update {coll : Coll} {filter : Filter} {update : Update} :
    serve ω l (.update_one coll filter update) w =
      match w.db.update_one coll filter update with
      | some (n, db) => ({ w with db := db }, .ok n)
      | none => (w, .error (refusal update.set)) := by
  show alone ω l (.update_one coll filter update) w = _
  simp only [alone, execute]
  cases w.db.update_one coll filter update <;> rfl

/-- What the clock answers. -/
theorem serve_utcnow : serve ω l .utcnow w =
    (w, if isDate w.now then .ok w.now else .error .valueError) := by
  simp only [serve, alone, execute]

/-! ## Registrations -/

variable [Bson]

/-- The request is handled alone. -/
def handleAlone (ω : Choice) (r : Request) (w : World) : World × Except PyError Reply :=
  (handle r).eval (serve ω r) w

/-- A document that is read back is encoded, if it can be read. -/
theorem eval_readBack {coll : Coll} {id : ObjectId} {doc : Doc}
    (h : findOne (.field "_id" (.oid id)) (w.db.docs coll) = some doc) :
    (find_one coll id >>= replyWith).eval (serve ω l) w =
      (w, if (Value.obj doc).decodable then (to_json doc).map fun json => ⟨[], .obj json⟩
        else .error .invalidBSON) := by
  have hfind : serve ω l (.find_one coll (.field "_id" (.oid id))) w = (w, readOne (some doc)) := by
    show (w, readOne (findOne (.field "_id" (.oid id)) (w.db.docs coll))) = _
    rw [h]
  by_cases hread : (Value.obj doc).decodable = true
  · have hone : readOne (some doc) = .ok (some doc) := if_pos hread
    rw [hone] at hfind
    have heval : (find_one coll id >>= replyWith).eval (serve ω l) w =
        (replyWith (some doc)).eval (serve ω l) w := Prog.eval_perform_bind hfind
    rw [heval, if_pos hread]
    show (liftExcept (to_json doc) >>= fun json => pure (Reply.mk [] (.obj json)) : Api Reply).eval
      (serve ω l) w = _
    cases to_json doc <;> rfl
  · have hone : readOne (some doc) = .error .invalidBSON := if_neg hread
    rw [hone] at hfind
    rw [if_neg hread]
    exact Prog.eval_perform_bind_error hfind

/-- The answer is a 4xx. -/
def ClientError (r : Except PyError Reply) : Prop := 400 ≤ (statusBody r).1 ∧ (statusBody r).1 < 500

/-- `POST /users` stores a valid payload as it is, and refuses any other. -/
def PostAgrees (ω : Choice) (w : World) (user : UserCreate) : Prop :=
  let x := handleAlone ω (.create_user user) w
  (FieldsValid user.fields → ∃ reply doc, x.2 = .ok reply ∧
    x.1.db.docs .users = w.db.docs .users ++ [doc] ∧ ∀ y ∈ user.fields, doc.get y.1 = some y.2) ∧
  (¬ FieldsValid user.fields → ClientError x.2 ∧ x.1.db.docs .users = w.db.docs .users)

/-- `PATCH /users/{user_id}` sets valid fields as they are, and refuses any other payload. -/
def PatchAgrees (ω : Choice) (w : World) (user_id : String) (id : ObjectId) (data : UserUpdate) :
    Prop :=
  let x := handleAlone ω (.update_user user_id data) w
  (FieldsValid data.update_data → ∃ reply doc, x.2 = .ok reply ∧
    findOne (.field "_id" (.oid id)) (x.1.db.docs .users) = some doc ∧
    ∀ y ∈ data.update_data, doc.get y.1 = some y.2) ∧
  (¬ FieldsValid data.update_data → ClientError x.2 ∧ x.1.db.docs .users = w.db.docs .users)

/-- A registration reads the clock first. -/
theorem handleAlone_create (user : UserCreate) (hclock : isDate w.now = true) :
    handleAlone ω (.create_user user) w =
      (insertUser user w.now).eval (serve ω (.create_user user)) w := by
  have hnow : serve ω (.create_user user) .utcnow w = (w, .ok w.now) := by
    rw [serve_utcnow, if_pos hclock]
  show (create_user user).eval _ w = _
  rw [create_user_eq]
  exact Prog.eval_perform_bind hnow

/-- It fails if the clock gives no date. -/
theorem handleAlone_create_error (user : UserCreate) (hclock : ¬ isDate w.now = true) :
    handleAlone ω (.create_user user) w = (w, .error .valueError) := by
  have hnow : serve ω (.create_user user) .utcnow w = (w, .error .valueError) := by
    rw [serve_utcnow, if_neg hclock]
  show (create_user user).eval _ w = _
  rw [create_user_eq]
  exact Prog.eval_perform_bind_error hnow

/-- What is inserted is read back and answered. -/
theorem create_user_some {user : UserCreate} {db : Db} (hfresh : Fresh ω w.db)
    (hclock : isDate w.now = true)
    (hdb : w.db.insert_one .users ω.id (user.model_dump ++ [("created_at", .date w.now)]) = some db) :
    ∃ w' reply, handleAlone ω (.create_user user) w = (w', .ok reply) ∧
      w'.db.docs .users = w.db.docs .users ++ [userDoc ω.id user w.now] := by
  have hinsert : (Prog.tryCatch (Prog.perform (Call.insert_one .users
      (user.model_dump ++ [("created_at", .date w.now)])))
        (fun e => Prog.raise (.httpException 400 e.str []))).eval (serve ω (.create_user user)) w =
          ({ w with db := db }, .ok ω.id) := by
    apply Prog.eval_tryCatch
    rw [Prog.eval_perform, serve_insert hfresh, hdb]
  obtain ⟨hdocs, -, -⟩ := Db.docs_insert_one hdb
  have hfound : findOne (.field "_id" (.oid ω.id)) (db.docs .users) =
      some (userDoc ω.id user w.now) := by
    apply Validated.findOne_of_mem (c := db.users) _ rfl
    show _ ∈ db.docs .users
    rw [hdocs]
    exact List.mem_append_right _ (List.mem_singleton_self _)
  have hencodable : Encodable (userDoc ω.id user w.now) := ⟨⟨_, rfl⟩, nofun, nofun⟩
  obtain ⟨out, hout⟩ := hencodable.to_json_ok
  refine ⟨World.without { w with db := db } "users:", ⟨[], .obj out⟩, ?_, hdocs⟩
  -- the caches are cleared, and the new document is read back and encoded
  have hrest : (afterUserInsert ω.id).eval (serve ω (.create_user user)) { w with db := db } =
      (World.without { w with db := db } "users:", .ok ⟨[], .obj out⟩) := by
    show (invalidate_users_cache >>= fun _ => find_one .users ω.id >>= replyWith).eval _ _ = _
    have husers : invalidate_users_cache = cache_delete_prefix "users:" := rfl
    rw [Prog.eval_bind (eval_delete_scanned husers), eval_readBack hfound,
      if_pos (decodable_userDoc ω.id user hclock), hout]
    rfl
  rw [handleAlone_create user hclock, ← hrest]
  exact Prog.eval_bind hinsert

/-- A refused insert is answered with 400. -/
theorem create_user_none {user : UserCreate} (hfresh : Fresh ω w.db) (hclock : isDate w.now = true)
    (hdb : w.db.insert_one .users ω.id (user.model_dump ++ [("created_at", .date w.now)]) = none) :
    ∃ detail, handleAlone ω (.create_user user) w = (w, .error (.httpException 400 detail [])) := by
  refine ⟨(refusal (user.model_dump ++ [("created_at", .date w.now)])).str, ?_⟩
  have hinsert : (Prog.tryCatch (Prog.perform (Call.insert_one .users
      (user.model_dump ++ [("created_at", .date w.now)])))
        (fun e => Prog.raise (.httpException 400 e.str []))).eval (serve ω (.create_user user)) w =
          (w, .error (.httpException 400
            (refusal (user.model_dump ++ [("created_at", .date w.now)])).str [])) := by
    have herror : (Prog.perform (Call.insert_one .users
        (user.model_dump ++ [("created_at", .date w.now)]))).eval (serve ω (.create_user user)) w =
          (w, .error (refusal (user.model_dump ++ [("created_at", .date w.now)]))) := by
      rw [Prog.eval_perform, serve_insert hfresh, hdb]
    rw [Prog.eval_tryCatch_error herror]
    rfl
  rw [handleAlone_create user hclock]
  exact Prog.eval_bind_error hinsert

/-- **Registrations.** A payload is handled as it should be just if the clock gives a date and the
payload has an age or is invalid. -/
theorem postAgrees_iff (hfresh : Fresh ω w.db) (user : UserCreate) :
    PostAgrees ω w user ↔
      isDate w.now = true ∧ (user.age.isSome = true ∨ ¬ FieldsValid user.fields) := by
  have hinsert := insert_userDoc hfresh user
  unfold PostAgrees
  by_cases hclock : isDate w.now = true
  · rw [and_iff_right hclock]
    cases hdb : w.db.insert_one .users ω.id (user.model_dump ++ [("created_at", .date w.now)]) with
    | none =>
      rw [hdb] at hinsert
      obtain ⟨detail, hanswer⟩ := create_user_none hfresh hclock hdb
      rw [hanswer]
      constructor
      · rintro ⟨hvalid, -⟩
        right
        intro hfields
        obtain ⟨reply, doc, hok, -⟩ := hvalid hfields
        cases hok
      · intro hcond
        have hinvalid : ¬ FieldsValid user.fields := by
          rcases hcond with hage | hinvalid
          · exact fun hfields => absurd (hinsert.mpr ⟨hage, hfields⟩) nofun
          · exact hinvalid
        refine ⟨fun hfields => absurd hfields hinvalid, fun _ => ⟨?_, rfl⟩⟩
        exact ⟨Nat.le_refl 400, by show 400 < 500; omega⟩
    | some db =>
      rw [hdb] at hinsert
      obtain ⟨hage, hfields⟩ := hinsert.mp rfl
      obtain ⟨w', reply, hanswer, hdocs⟩ := create_user_some hfresh hclock hdb
      rw [hanswer]
      refine iff_of_true ⟨fun _ => ?_, fun hinvalid => absurd hfields hinvalid⟩ (.inl hage)
      exact ⟨reply, _, rfl, hdocs, fun y hy => get_userDoc hy⟩
  · -- `utcnow` raises, and nothing catches it
    rw [handleAlone_create_error user hclock]
    refine iff_of_false ?_ fun hcond => hclock hcond.1
    rintro ⟨hvalid, hinvalid⟩
    by_cases hfields : FieldsValid user.fields
    · obtain ⟨reply, doc, hok, -⟩ := hvalid hfields
      cases hok
    · have hlt : 500 < 500 := (hinvalid hfields).1.2
      omega

/-! ## Updates -/

section Updates

variable {user_id : String} {id : ObjectId} {data : UserUpdate} {doc : Doc}

/-- What follows the checks of `update_user`. -/
theorem handleAlone_update (hid : oid user_id = .ok id) (hne : data.update_data ≠ []) :
    handleAlone ω (.update_user user_id data) w =
      (Prog.perform (Call.update_one .users (.field "_id" (.oid id)) { set := data.update_data }) >>=
        fun (matched_count : Nat) =>
          if matched_count = 0 then Prog.raise (.httpException 404 "User not found" [])
          else invalidate_users_cache >>= fun _ => invalidate_posts_cache >>= fun _ =>
            invalidate_messages_cache >>= fun _ => find_one .users id >>= replyWith).eval
              (serve ω (.update_user user_id data)) w := by
  show (update_user user_id data).eval _ w = _
  unfold update_user
  show (if data.update_data = [] then _ else _ : Api Reply).eval _ w = _
  rw [if_neg hne, hid]
  rfl

/-- What is updated is read back and encoded. -/
theorem handleAlone_update_some {db : Db} (hid : oid user_id = .ok id)
    (hne : data.update_data ≠ [])
    (hdb : w.db.update_one .users (.field "_id" (.oid id)) { set := data.update_data } =
      some (1, db))
    (hfound : findOne (.field "_id" (.oid id)) (db.docs .users) = some doc) :
    ∃ w', w'.db = db ∧ handleAlone ω (.update_user user_id data) w =
      (w', if (Value.obj doc).decodable then (to_json doc).map fun json => ⟨[], .obj json⟩
        else .error .invalidBSON) := by
  have hserve : serve ω (.update_user user_id data)
      (.update_one .users (.field "_id" (.oid id)) { set := data.update_data }) w =
        ({ w with db := db }, .ok (1 : Nat)) := by
    rw [serve_update, hdb]
  refine ⟨World.without (((World.without { w with db := db } "users:").without "posts:").without
    "stats:") "messages:", rfl, ?_⟩
  rw [handleAlone_update hid hne]
  refine (Prog.eval_perform_bind hserve).trans ?_
  show (invalidate_users_cache >>= fun _ => invalidate_posts_cache >>= fun _ =>
    invalidate_messages_cache >>= fun _ => find_one .users id >>= replyWith).eval _ _ = _
  have husers : invalidate_users_cache = cache_delete_prefix "users:" := rfl
  have hmessages : invalidate_messages_cache = cache_delete_prefix "messages:" := rfl
  rw [Prog.eval_bind (eval_delete_scanned husers), Prog.eval_bind eval_invalidate_posts_cache,
    Prog.eval_bind (eval_delete_scanned hmessages), eval_readBack hfound]

/-- A refused update is answered with 500. -/
theorem handleAlone_update_none (hid : oid user_id = .ok id) (hne : data.update_data ≠ [])
    (hdb : w.db.update_one .users (.field "_id" (.oid id)) { set := data.update_data } = none) :
    ∃ e, handleAlone ω (.update_user user_id data) w = (w, .error e) ∧
      (statusBody (.error e)).1 = 500 := by
  have hserve : serve ω (.update_user user_id data)
      (.update_one .users (.field "_id" (.oid id)) { set := data.update_data }) w =
        (w, .error (refusal data.update_data)) := by
    rw [serve_update, hdb]
  refine ⟨refusal data.update_data, ?_, ?_⟩
  · rw [handleAlone_update hid hne]
    exact Prog.eval_perform_bind_error hserve
  · unfold refusal
    split_ifs <;> rfl

/-- **Updates.** A payload is handled as it should be just if it is valid and the document of the
user can be read and encoded. -/
theorem patchAgrees_iff (hid : oid user_id = .ok id) (hne : data.update_data ≠ [])
    (hfound : findOne (.field "_id" (.oid id)) (w.db.docs .users) = some doc) :
    PatchAgrees ω w user_id id data ↔ FieldsValid data.update_data ∧ Shown doc := by
  obtain ⟨hupdate, hrefused⟩ := update_user_doc data hfound
  obtain ⟨hnodup, hnoId, hnoLikes, hnoComments⟩ := update_data_keys data
  unfold PatchAgrees
  by_cases hvalid : FieldsValid data.update_data
  · obtain ⟨db, hdb, hafter⟩ := hupdate hvalid
    obtain ⟨w', hw', hanswer⟩ := handleAlone_update_some (ω := ω) hid hne hdb hafter
    have hencodable : Encodable (doc.setAll data.update_data) ↔ Encodable doc := by
      apply Encodable.congr
      simp only [List.forall_mem_cons]
      exact ⟨Doc.get_setAll_of_notMem doc hnoId, Doc.get_setAll_of_notMem doc hnoLikes,
        Doc.get_setAll_of_notMem doc hnoComments, nofun⟩
    -- the fields that are set can be read, and so could those in their places
    have hdecodable : (Value.obj (doc.setAll data.update_data)).decodable = true ↔
        (Value.obj doc).decodable = true := by
      have hmem := (Validated.findOne_id (c := w.db.users) hfound).1
      have hall := (Schema.holds_object_iff.mp (w.db.users.valid doc hmem)).2
      refine Doc.decodable_setAll (fun x hx => (decodable_of_update_data hx).1) fun x hx v hv => ?_
      exact (decodable_of_update_data hx).2 v fun s hs => hall (x.1, s) hs v hv
    have hshown : Shown (doc.setAll data.update_data) ↔ Shown doc := and_congr hdecodable hencodable
    rw [and_iff_right hvalid, ← hshown, hanswer]
    constructor
    · rintro ⟨hok, -⟩
      obtain ⟨reply, doc', hreply, -⟩ := hok hvalid
      by_cases hread : (Value.obj (doc.setAll data.update_data)).decodable = true
      · rw [if_pos hread] at hreply
        obtain ⟨out, hout, -⟩ := Fallible.exists_of_bind hreply
        exact ⟨hread, encodable_iff.mpr ⟨out, hout⟩⟩
      · rw [if_neg hread] at hreply
        cases hreply
    · rintro ⟨hread, hencodable⟩
      obtain ⟨out, hout⟩ := hencodable.to_json_ok
      refine ⟨fun _ => ⟨⟨[], .obj out⟩, doc.setAll data.update_data, ?_, ?_, fun y hy => ?_⟩,
        fun hinvalid => absurd hvalid hinvalid⟩
      · rw [if_pos hread, hout]
        rfl
      · rw [hw']
        exact hafter
      · exact Doc.get_setAll_of_mem doc hnodup hy
  · -- the exception is not caught
    obtain ⟨e, hanswer, hstatus⟩ := handleAlone_update_none (ω := ω) hid hne (hrefused hvalid)
    rw [hanswer]
    refine iff_of_false (fun hall => ?_) fun hall => hvalid hall.1
    have hlt : (statusBody (.error e)).1 < 500 := (hall.2 hvalid).1.2
    omega

end Updates

/-! ## Both payloads -/

end Payloads

open scoped Hex

/-- Carol, with an age or without. -/
def carol (age : Option Int) : UserCreate :=
  ⟨"carol", "carol@example.com", "secret", "Carol", "Davis", age, []⟩

theorem carol_valid {age : Option Int} (h : AgeOk age) : FieldsValid (carol age).fields := by
  have hlogin : loginPattern "carol" = true := by decide
  have hemail : emailPattern "carol@example.com" = true := by decide +kernel
  have hpassword : 6 ≤ "secret".length := by decide
  exact (fieldsValid_create _).mpr ⟨hlogin, hemail, hpassword, h⟩

/-- An age for the user with id 1. -/
def setAge (age : Int) : UserUpdate := ⟨none, none, some age, none⟩

end SocialNetwork.MongoApi

import SocialNetwork.MongoApi.Dependence

/-!
# Databases that differ in passwords

`mask` hides the text of the password of a document (the validator of users admits no other
password). Two databases are alike when their collections are the same but for the passwords of
users; the operations on them answer alike and keep them alike.
-/

namespace SocialNetwork.MongoApi

open DocStore KeyValue

/-! ## Documents -/

/-- The text of a password is hidden. -/
def hide : String × Value → String × Value
  | (f, .str s) => (f, if f = "password" then .null else .str s)
  | x => x

/-- A document without the text of its password. -/
def mask (d : Doc) : Doc := d.map hide

theorem hide_fst (x : String × Value) : (hide x).1 = x.1 := by
  obtain ⟨f, v⟩ := x
  cases v <;> rfl

theorem hide_of_ne {f : String} (h : f ≠ "password") (v : Value) : hide (f, v) = (f, v) := by
  cases v with
  | str s => exact Prod.ext rfl (if_neg h)
  | _ => rfl

/-- The other fields are read as before. -/
theorem get_mask (d : Doc) {f : String} (h : f ≠ "password") : (mask d).get f = d.get f := by
  induction d with
  | nil => rfl
  | cons x d ih =>
    obtain ⟨g, v⟩ := x
    unfold mask at ih ⊢
    by_cases hg : g = "password"
    · have hhide : hide (g, v) = (g, (hide (g, v)).2) := Prod.ext (hide_fst (g, v)) rfl
      rw [List.map_cons, hhide, Doc.get_cons, Doc.get_cons, if_neg (hg ▸ h), if_neg (hg ▸ h), ih]
    · rw [List.map_cons, hide_of_ne hg, Doc.get_cons, Doc.get_cons, ih]

/-- Setting another field commutes with hiding. -/
theorem mask_set (d : Doc) {f : String} (h : f ≠ "password") (v : Value) :
    mask (d.set f v) = (mask d).set f v := by
  have hhide := hide_of_ne h v
  induction d with
  | nil =>
    show [hide (f, v)] = [(f, v)]
    rw [hhide]
  | cons x d ih =>
    obtain ⟨g, w⟩ := x
    unfold mask at ih ⊢
    by_cases hg : g = f
    · have hgv : hide (g, v) = (g, v) := hide_of_ne (hg ▸ h) v
      have hgw : hide (g, w) = (g, w) := hide_of_ne (hg ▸ h) w
      rw [Doc.set, if_pos hg, List.map_cons, List.map_cons, hgv, hgw, Doc.set, if_pos hg]
    · have hgw : hide (g, w) = (g, (hide (g, w)).2) := Prod.ext (hide_fst (g, w)) rfl
      rw [Doc.set, if_neg hg, List.map_cons, List.map_cons, ih, hgw, Doc.set, if_neg hg]

/-- A text can be read, whether it is hidden or not. -/
theorem decodable_hide (x : String × Value) : (hide x).2.decodable = x.2.decodable := by
  obtain ⟨f, v⟩ := x
  cases v with
  | str s =>
    show (if f = "password" then Value.null else .str s).decodable = true
    split_ifs <;> rfl
  | _ => rfl

theorem decodable_mask (d : Doc) : (Value.obj (mask d)).decodable = (Value.obj d).decodable := by
  rw [Bool.eq_iff_iff, Value.decodable_obj, Value.decodable_obj]
  unfold mask
  rw [List.forall_mem_map]
  refine forall₂_congr fun x _ => ?_
  rw [decodable_hide]

/-- Setting other fields commutes with hiding. -/
theorem mask_setAll (d : Doc) {fs : Doc} (h : "password" ∉ fs.map Prod.fst) :
    mask (d.setAll fs) = (mask d).setAll fs := by
  induction fs generalizing d with
  | nil => rfl
  | cons x fs ih =>
    rw [List.map_cons, List.mem_cons, not_or] at h
    rw [Doc.setAll_cons, Doc.setAll_cons, ih _ h.2, mask_set d (Ne.symm h.1)]

/-- What is the same in documents that are alike. -/
theorem get_eq_of_mask {d d' : Doc} (h : mask d = mask d') {f : String} (hf : f ≠ "password") :
    d.get f = d'.get f := by
  rw [← get_mask d hf, h, get_mask d' hf]

/-- Documents equal but for passwords are decodable together. -/
theorem decodable_eq_of_mask {d d' : Doc} (h : mask d = mask d') :
    (Value.obj d).decodable = (Value.obj d').decodable := by
  rw [← decodable_mask d, h, decodable_mask d']

theorem isEmpty_eq_of_mask {d d' : Doc} (h : mask d = mask d') : d.isEmpty = d'.isEmpty := by
  have hmask : ∀ d : Doc, (mask d).isEmpty = d.isEmpty := fun d => List.isEmpty_map
  rw [← hmask d, h, hmask d']

/-! ## Queries -/

/-- A query that does not look at passwords. -/
def IgnoresPassword (f : Filter) : Prop := ∀ d, f.holds (mask d) = f.holds d

/-- The field that a condition looks at. -/
def condField : Cond → String
  | .eq f _ | .ne f _ | .gt f _ | .isIn f _ => f

/-- A filter on other fields does not look at the password. -/
theorem ignoresPassword_all {cs : List Cond} (h : ∀ c ∈ cs, condField c ≠ "password") :
    IgnoresPassword (.all cs) := by
  intro d
  have hcond : ∀ c ∈ cs, c.holds (mask d) = c.holds d := by
    intro c hc
    have hfield := get_mask d (h c hc)
    unfold condField at hfield
    cases c <;> simp only [Cond.holds, hfield]
  show (cs.all fun c => c.holds (mask d)) = cs.all fun c => c.holds d
  rw [Bool.eq_iff_iff, List.all_eq_true, List.all_eq_true]
  refine forall₂_congr fun c hc => ?_
  rw [hcond c hc]

theorem ignoresPassword_id (id : ObjectId) : IgnoresPassword (.field "_id" (.oid id)) := by
  refine ignoresPassword_all fun c hc => ?_
  rw [List.mem_singleton.mp hc]
  show "_id" ≠ "password"
  decide

/-! ## Collections -/

section Collections

variable {c c' : List Doc} {f : Filter}

/-- `find_one` finds the same place, hidden or not. -/
theorem find?_mask (hf : IgnoresPassword f) (c : List Doc) :
    (c.map mask).find? f.holds = (c.find? f.holds).map mask := by
  rw [List.find?_map]
  have hcomp : f.holds ∘ mask = f.holds := funext hf
  rw [hcomp]

/-- What is read off the selected documents does not depend on the password. -/
theorem filter_mask {α : Type} (p : Doc → Bool) (q : Doc → α) (hp : ∀ d, p (mask d) = p d)
    (hq : ∀ d, q (mask d) = q d) (c : List Doc) : ((c.map mask).filter p).map q = (c.filter p).map q := by
  rw [List.filter_map, List.map_map]
  have hcomp : p ∘ mask = p := funext hp
  have hcomp' : q ∘ mask = q := funext hq
  rw [hcomp, hcomp']

/-- What is found in collections that are alike is alike. -/
theorem findOne_like (hf : IgnoresPassword f) (h : c.map mask = c'.map mask) :
    (findOne f c).map mask = (findOne f c').map mask := by
  unfold findOne
  rw [← find?_mask hf, h, find?_mask hf]

/-- The same document is replaced, hidden or not. -/
theorem replaceFirst_mask (hf : IgnoresPassword f) (d : Doc) (c : List Doc) :
    (replaceFirst f.holds d c).map mask = replaceFirst f.holds (mask d) (c.map mask) := by
  induction c with
  | nil => rfl
  | cons x c ih =>
    rw [List.map_cons, replaceFirst, replaceFirst, hf x]
    split_ifs
    · rfl
    · rw [List.map_cons, ih]

/-- The same document is deleted. -/
theorem deleteOne_like (hf : IgnoresPassword f) (h : c.map mask = c'.map mask) :
    (deleteOne f c).1 = (deleteOne f c').1 ∧
      (deleteOne f c).2.map mask = (deleteOne f c').2.map mask := by
  have herase : ∀ c : List Doc, (c.eraseP f.holds).map mask = (c.map mask).eraseP f.holds := by
    intro c
    rw [List.eraseP_map]
    have hcomp : f.holds ∘ mask = f.holds := funext hf
    rw [hcomp]
  have hfound := findOne_like hf h
  unfold findOne at hfound
  unfold deleteOne
  cases hc : c.find? f.holds with
  | none =>
    rw [hc] at hfound
    rw [Option.map_eq_none_iff.mp hfound.symm]
    exact ⟨rfl, h⟩
  | some d =>
    rw [hc] at hfound
    obtain ⟨d', hd', -⟩ := Option.map_eq_some_iff.mp hfound.symm
    rw [hd']
    refine ⟨rfl, ?_⟩
    show (c.eraseP f.holds).map mask = (c'.eraseP f.holds).map mask
    rw [herase, herase, h]

/-- An update that sets other fields, on collections that are alike. -/
theorem updateOne_like (hf : IgnoresPassword f) (h : c.map mask = c'.map mask) {fs : Doc}
    (hfs : "password" ∉ fs.map Prod.fst) :
    ∃ n docs docs', updateOne f { set := fs } false c = some (n, docs) ∧
      updateOne f { set := fs } false c' = some (n, docs') ∧ docs.map mask = docs'.map mask := by
  have hfound := findOne_like hf h
  unfold findOne at hfound
  unfold updateOne
  cases hc : c.find? f.holds with
  | none =>
    rw [hc] at hfound
    rw [Option.map_eq_none_iff.mp hfound.symm]
    exact ⟨0, c, c', rfl, rfl, h⟩
  | some d =>
    rw [hc] at hfound
    obtain ⟨d', hd', hmask⟩ := Option.map_eq_some_iff.mp hfound.symm
    rw [hd']
    refine ⟨1, _, _, rfl, rfl, ?_⟩
    rw [replaceFirst_mask hf, replaceFirst_mask hf, h, mask_setAll d hfs, mask_setAll d' hfs, hmask]

end Collections

/-! ## Validators -/

/-- The password, if there is one, is accepted. -/
def passwordOk (d : Doc) : Bool := (d.get "password").all (Schema.string fun s => 6 ≤ s.length).holds

theorem isSome_get_mask (d : Doc) (f : String) : ((mask d).get f).isSome = (d.get f).isSome := by
  induction d with
  | nil => rfl
  | cons x d ih =>
    obtain ⟨g, v⟩ := x
    have hhide : hide (g, v) = (g, (hide (g, v)).2) := Prod.ext (hide_fst (g, v)) rfl
    unfold mask at ih ⊢
    rw [List.map_cons, hhide, Doc.get_cons, Doc.get_cons]
    split_ifs
    · rfl
    · exact ih

/-- The validator of users judges alike what is alike. -/
theorem valid_like {d d' : Doc} (h : mask d = mask d') (hok : passwordOk d = passwordOk d') :
    (schema .users).holds (.obj d) = (schema .users).holds (.obj d') := by
  have hrequired : ∀ f : String, (d.get f).isSome = (d'.get f).isSome := by
    intro f
    rw [← isSome_get_mask d, h, isSome_get_mask d']
  unfold schema
  rw [Schema.holds, Schema.holds]
  congr 1
  · rw [Bool.eq_iff_iff, List.all_eq_true, List.all_eq_true]
    refine forall₂_congr fun f _ => ?_
    exact Bool.eq_iff_iff.mp (hrequired f)
  · refine Schema.holdsAll_congr fun x hx => ?_
    by_cases hpassword : x.1 = "password"
    · have hx : x = ("password", Schema.string fun s => 6 ≤ s.length) := by
        simp only [List.mem_cons, List.not_mem_nil, or_false] at hx
        rcases hx with rfl | rfl | rfl | rfl | rfl | rfl | rfl | rfl <;>
          first | rfl | exact absurd hpassword (by decide)
      rw [hx]
      exact hok
    · have hget := get_eq_of_mask h hpassword
      unfold Doc.get at hget
      rw [hget]

/-- The password of a user is accepted. -/
theorem passwordOk_of_valid {d : Doc} (h : (schema .users).holds (.obj d) = true) :
    passwordOk d = true := by
  obtain ⟨v, hv, hholds⟩ := Schema.exists_of_required (f := "password")
    (s := .string fun s => 6 ≤ s.length) h (by decide) (by simp)
  unfold passwordOk
  rw [hv]
  exact hholds

/-! ## Users -/

section Users

variable {x x' : Validated (schema .users)}

/-- Collections equal but for passwords hold the same ids. -/
theorem ids_like {c c' : List Doc} (h : c.map mask = c'.map mask) :
    c.map (·.get "_id") = c'.map (·.get "_id") := by
  have hids : ∀ c : List Doc, c.map (·.get "_id") = (c.map mask).map (·.get "_id") := by
    intro c
    rw [List.map_map]
    apply List.map_congr_left
    intro d _
    exact (get_mask d (by decide)).symm
  rw [hids, h, ← hids]

/-- If the passwords are accepted, collections that are alike are valid alike. -/
theorem allValid_of_like {c c' : List Doc} (h : c.map mask = c'.map mask)
    (hok : ∀ d ∈ c, passwordOk d = true) (hok' : ∀ d ∈ c', passwordOk d = true)
    (hvalid : ∀ d ∈ c, (schema .users).holds (.obj d) = true) :
    ∀ d ∈ c', (schema .users).holds (.obj d) = true := by
  intro d' hd'
  have hmem : mask d' ∈ c.map mask := by
    rw [h]
    exact List.mem_map_of_mem hd'
  obtain ⟨d, hd, heq⟩ := List.mem_map.mp hmem
  rw [← valid_like heq ((hok d hd).trans (hok' d' hd').symm)]
  exact hvalid d hd

/-- An update that sets other fields leaves the passwords accepted. -/
theorem passwordOk_of_updateOne {f : Filter} {fs : Doc} (hfs : "password" ∉ fs.map Prod.fst) {n : Nat}
    {docs : List Doc} (h : DocStore.updateOne f { set := fs } false x.docs = some (n, docs)) :
    ∀ d ∈ docs, passwordOk d = true := by
  have hold : ∀ d ∈ x.docs, passwordOk d = true := fun d hd => passwordOk_of_valid (x.valid d hd)
  rcases DocStore.updateOne_eq_some h with
    ⟨l₁, d, l₂, d', hc, -, happly, -, rfl⟩ | ⟨-, -, hup, -⟩ | ⟨-, -, -, rfl⟩
  · rw [hc] at hold
    intro y hy
    rcases List.mem_append.mp hy with hy | hy
    · exact hold y (List.mem_append_left _ hy)
    · rcases List.mem_cons.mp hy with rfl | hy
      · rw [Update.apply_set] at happly
        have hpassword := hold d (List.mem_append_right _ List.mem_cons_self)
        unfold passwordOk at hpassword ⊢
        rwa [← Option.some.inj happly, Doc.get_setAll_of_notMem d hfs]
      · exact hold y (List.mem_append_right _ (List.mem_cons_of_mem _ hy))
  · cases hup
  · exact hold

/-- The same document is updated, and accepted or refused alike. -/
theorem validated_updateOne_like (h : x.docs.map mask = x'.docs.map mask) {f : Filter}
    (hf : IgnoresPassword f) {fs : Doc} (hfs : "password" ∉ fs.map Prod.fst) :
    Option.Rel (fun a b => a.1 = b.1 ∧ a.2.docs.map mask = b.2.docs.map mask)
      (x.updateOne f { set := fs }) (x'.updateOne f { set := fs }) := by
  obtain ⟨n, docs, docs', hu, hu', hdocs⟩ := updateOne_like hf h hfs
  have hok := passwordOk_of_updateOne hfs hu
  have hok' := passwordOk_of_updateOne hfs hu'
  have hids := ids_like hdocs
  have hids₀ := ids_like h
  have hcond : ((∀ d ∈ docs, (schema .users).holds (.obj d) = true) ∧
        docs.map (·.get "_id") = x.docs.map (·.get "_id")) ↔
      ((∀ d ∈ docs', (schema .users).holds (.obj d) = true) ∧
        docs'.map (·.get "_id") = x'.docs.map (·.get "_id")) := by
    rw [hids, hids₀]
    exact and_congr ⟨allValid_of_like hdocs hok hok', allValid_of_like hdocs.symm hok' hok⟩ Iff.rfl
  unfold Validated.updateOne
  rw [hu, hu']
  simp only
  by_cases hc : (∀ d ∈ docs, (schema .users).holds (.obj d) = true) ∧
      docs.map (·.get "_id") = x.docs.map (·.get "_id")
  · rw [dif_pos hc, dif_pos (hcond.mp hc)]
    exact .some ⟨rfl, hdocs⟩
  · rw [dif_neg hc, dif_neg fun hc' => hc (hcond.mpr hc')]
    exact .none

/-- Two documents that are alike, also in whether their passwords are accepted, are inserted alike. -/
theorem validated_insertOne_like (h : x.docs.map mask = x'.docs.map mask) (id : ObjectId) {d d' : Doc}
    (hd : mask d = mask d') (hok : passwordOk d = passwordOk d') :
    Option.Rel (fun a b => a.docs.map mask = b.docs.map mask) (x.insertOne id d) (x'.insertOne id d') := by
  have hnew : mask (("_id", .oid id) :: d) = mask (("_id", .oid id) :: d') :=
    congrArg (List.cons (hide ("_id", .oid id))) hd
  have hcons : ∀ d : Doc, passwordOk (("_id", .oid id) :: d) = passwordOk d := by
    intro d
    unfold passwordOk
    rw [Doc.get_cons, if_neg (by decide)]
  have hdocs : (x.docs ++ [("_id", .oid id) :: d]).map mask =
      (x'.docs ++ [("_id", .oid id) :: d']).map mask := by
    rw [List.map_append, List.map_append, h, List.map_singleton, List.map_singleton, hnew]
  have hvalid := valid_like hnew (by rw [hcons, hcons, hok])
  have hids := ids_like hdocs
  unfold Validated.insertOne
  simp only
  by_cases hc : (schema .users).holds (.obj (("_id", .oid id) :: d)) = true ∧
      ((x.docs ++ [("_id", .oid id) :: d]).map (·.get "_id")).Nodup
  · have hc' := hc
    rw [hvalid, hids] at hc'
    rw [dif_pos hc, dif_pos hc']
    exact .some hdocs
  · have hc' := hc
    rw [hvalid, hids] at hc'
    rw [dif_neg hc, dif_neg hc']
    exact .none

end Users

/-! ## Statistics -/

section Statistics

/-- What the last stage of the statistics reads. -/
def statsView (d : Doc) : Doc × Option Value × Option Value :=
  (d.filter fun x => x.1 ∈ ["posts_count", "likes_count"], d.get "_id", d.at? ["author", "login"])

/-- A field that is not kept can be set unseen. -/
theorem filter_set {keep : List String} {f : String} (hf : f ∉ keep) (d : Doc) (v : Value) :
    (d.set f v).filter (fun x => x.1 ∈ keep) = d.filter fun x => x.1 ∈ keep := by
  induction d with
  | nil =>
    show [(f, v)].filter _ = []
    simp [hf]
  | cons x d ih =>
    obtain ⟨g, w⟩ := x
    by_cases hg : g = f
    · rw [Doc.set, if_pos hg]
      simp [hg, hf]
    · rw [Doc.set, if_neg hg, List.filter_cons, List.filter_cons, ih]

/-- A group joined with a user. -/
theorem statsView_join (d : Doc) (user : Doc) : statsView (d.set "author" (.obj user)) =
    (d.filter fun x => x.1 ∈ ["posts_count", "likes_count"], d.get "_id", Doc.get user "login") := by
  have hlogin : Doc.at? (d.set "author" (.obj user)) ["author", "login"] = Doc.get user "login" := by
    have hauthor := Doc.get_set_self d "author" (.obj user)
    simp only [Doc.at?, hauthor]
  unfold statsView
  rw [filter_set (by decide), Doc.get_set_of_ne d _ (by decide), hlogin]

/-- The groups with their authors, as the last stage reads them. -/
theorem statsView_unwind (users groups : List Doc) :
    (Stage.runUnwind "author" (Stage.runLookup users "_id" "_id" "author" groups)).map statsView =
      groups.flatMap fun d => (Stage.joined users "_id" "_id" d).map fun user =>
        (d.filter fun x => x.1 ∈ ["posts_count", "likes_count"], d.get "_id", Doc.get user "login") := by
  unfold Stage.runUnwind Stage.runLookup
  rw [List.flatMap_map, List.map_flatMap]
  congr 1
  funext d
  rw [Doc.get_set_self]
  simp only [List.map_map]
  apply List.map_congr_left
  intro user _
  show statsView ((d.set "author" _).set "author" (.obj user)) = _
  rw [statsView_join, filter_set (by decide), Doc.get_set_of_ne d _ (by decide)]

theorem runProject_eq_of_view {docs docs' : List Doc} (h : docs.map statsView = docs'.map statsView) :
    Stage.runProject ["posts_count", "likes_count"] [("user_id", .toString (.field ["_id"])),
        ("login", .field ["author", "login"])] docs =
      Stage.runProject ["posts_count", "likes_count"] [("user_id", .toString (.field ["_id"])),
        ("login", .field ["author", "login"])] docs' := by
  refine Fallible.mapM_eq_of_view (fun d d' (hview : statsView d = statsView d') => ?_) h
  obtain ⟨hkeep, hview⟩ := Prod.mk.inj hview
  obtain ⟨hid, hlogin⟩ := Prod.mk.inj hview
  have hid' : Doc.at? d ["_id"] = Doc.at? d' ["_id"] := hid
  have hlogin' : Expr.eval d (.field ["author", "login"]) = Expr.eval d' (.field ["author", "login"]) :=
    congrArg Except.ok hlogin
  have huser : Expr.eval d (.toString (.field ["_id"])) = Expr.eval d' (.toString (.field ["_id"])) := by
    simp only [Expr.eval, hid']
  simp only [List.mapM_cons, List.mapM_nil, huser, hlogin', hkeep]

/-- Passwords do not matter for the statistics. -/
theorem pipeline_run_like {env env' : Coll → List Doc}
    (h : (env .users).map mask = (env' .users).map mask) (posts : List Doc) :
    pipeline.run env posts = pipeline.run env' posts := by
  rw [pipeline_run, pipeline_run]
  congr 1
  funext groups
  apply runProject_eq_of_view
  rw [statsView_unwind, statsView_unwind]
  congr 1
  funext d
  have hjoined : ∀ users : List Doc, (Stage.joined users "_id" "_id" d).map (fun user =>
      (d.filter fun x => x.1 ∈ ["posts_count", "likes_count"], d.get "_id", Doc.get user "login")) =
        (Stage.joined (users.map mask) "_id" "_id" d).map fun user =>
          (d.filter fun x => x.1 ∈ ["posts_count", "likes_count"], d.get "_id", Doc.get user "login") := by
    intro users
    unfold Stage.joined
    rw [filter_mask]
    · intro user
      rw [get_mask user (by decide)]
    · intro user
      rw [get_mask user (by decide)]
  rw [hjoined, h, ← hjoined]

end Statistics

/-! ## Databases -/

/-- The databases are the same but for the passwords of users. -/
structure Db.Like (db db' : Db) : Prop where
  users : (db.docs .users).map mask = (db'.docs .users).map mask
  posts : db.posts = db'.posts
  messages : db.messages = db'.messages
  issued : db.issued = db'.issued

namespace Db.Like

variable {db db' : Db} {c : Coll}

theorem coll (h : db.Like db') (hc : c ≠ .users) : db.coll c = db'.coll c := by
  cases c with
  | users => exact absurd rfl hc
  | posts => exact h.posts
  | messages => exact h.messages

variable {new : List ObjectId}

theorem issued_append (h : db.Like db') (new : List ObjectId) : db.issued ++ new = db'.issued ++ new := by
  rw [h.issued]

/-- Both databases replace one of the other two collections. -/
theorem setColl (h : db.Like db') (hc : c ≠ .users) {x x' : Validated (schema c)} (heq : x = x')
    (hx : IdsIn (db.issued ++ new) x.docs) (hx' : IdsIn (db'.issued ++ new) x'.docs) :
    (db.setColl new c x hx).Like (db'.setColl new c x' hx') := by
  cases c with
  | users => exact absurd rfl hc
  | posts => exact ⟨h.users, heq, h.messages, h.issued_append new⟩
  | messages => exact ⟨h.users, h.posts, heq, h.issued_append new⟩

/-- Both databases replace their users, equal but for passwords. -/
theorem setUsers (h : db.Like db') {x x' : Validated (schema .users)}
    (hmask : x.docs.map mask = x'.docs.map mask) (hx : IdsIn (db.issued ++ new) x.docs)
    (hx' : IdsIn (db'.issued ++ new) x'.docs) :
    (db.setColl new .users x hx).Like (db'.setColl new .users x' hx') :=
  ⟨hmask, h.posts, h.messages, h.issued_append new⟩

/-- Results that are related are made into databases that are. -/
theorem rel_attach {α β γ δ : Type} {R : α → β → Prop} {S : γ → δ → Prop} {o : Option α} {o' : Option β}
    (h : Option.Rel R o o') (f : {x // o = some x} → γ) (f' : {x // o' = some x} → δ)
    (hf : ∀ x x', R x.1 x'.1 → S (f x) (f' x')) :
    Option.Rel S (o.attach.map f) (o'.attach.map f') := by
  cases h with
  | none => exact .none
  | some hab => exact .some (hf ⟨_, rfl⟩ ⟨_, rfl⟩ hab)

theorem rel_eq {α : Type} {o o' : Option α} (h : o = o') : Option.Rel Eq o o' := by
  subst h
  cases o with
  | none => exact .none
  | some a => exact .some rfl

/-- Both take the document, or both refuse it. -/
theorem insert_one (h : db.Like db') (hc : c ≠ .users) (id : ObjectId) (doc : Doc) :
    Option.Rel Db.Like (db.insert_one c id doc) (db'.insert_one c id doc) := by
  unfold Db.insert_one
  split_ifs
  · exact rel_attach (rel_eq (by rw [h.coll hc])) _ _ fun _ _ heq => h.setColl hc heq _ _
  · exact .none

/-- Both update the same post or message. -/
theorem update_other (h : db.Like db') (hc : c ≠ .users) (filter : Filter) (update : Update) :
    Option.Rel (fun x x' => x.1 = x'.1 ∧ Db.Like x.2 x'.2) (db.update_one c filter update)
      (db'.update_one c filter update) := by
  unfold Db.update_one
  split_ifs
  · refine rel_attach (rel_eq (by rw [h.coll hc])) _ _ fun x x' heq => ⟨?_, ?_⟩
    · show x.1.1 = x'.1.1
      rw [heq]
    · apply h.setColl hc
      rw [heq]
  · exact .none

theorem delete_other (h : db.Like db') (hc : c ≠ .users) (filter : Filter) :
    (db.delete_one c filter).1 = (db'.delete_one c filter).1 ∧
      (db.delete_one c filter).2.Like (db'.delete_one c filter).2 := by
  have hdelete : (db.coll c).deleteOne filter = (db'.coll c).deleteOne filter := by rw [h.coll hc]
  refine ⟨?_, ?_⟩
  · show ((db.coll c).deleteOne filter).1 = ((db'.coll c).deleteOne filter).1
    rw [hdelete]
  · apply h.setColl hc
    rw [hdelete]

theorem delete_users (h : db.Like db') {filter : Filter} (hf : IgnoresPassword filter) :
    (db.delete_one .users filter).1 = (db'.delete_one .users filter).1 ∧
      (db.delete_one .users filter).2.Like (db'.delete_one .users filter).2 := by
  obtain ⟨hn, hdocs⟩ := deleteOne_like hf h.users
  exact ⟨hn, h.setUsers hdocs (db.idsIn_deleteOne .users filter) (db'.idsIn_deleteOne .users filter)⟩

/-- An update of a user sets other fields than the password. -/
theorem update_users (h : db.Like db') {filter : Filter} (hf : IgnoresPassword filter) {fs : Doc}
    (hfs : "password" ∉ fs.map Prod.fst) :
    Option.Rel (fun x x' => x.1 = x'.1 ∧ Db.Like x.2 x'.2) (db.update_one .users filter { set := fs })
      (db'.update_one .users filter { set := fs }) := by
  have husers : (db.coll .users).docs.map mask = (db'.coll .users).docs.map mask := h.users
  have hrel := validated_updateOne_like husers hf hfs
  unfold Db.update_one
  split_ifs
  · exact rel_attach hrel _ _ fun x x' hab =>
      ⟨hab.1, h.setUsers hab.2 (db.idsIn_updateOne x.2) (db'.idsIn_updateOne x'.2)⟩
  · exact .none

/-- A user is registered, with one password or another. -/
theorem insert_user (h : db.Like db') {user : UserCreate} {password : String}
    (hp : 6 ≤ user.password.length ↔ 6 ≤ password.length) (id : ObjectId) (created_at : Nat) :
    Option.Rel Db.Like
      (db.insert_one .users id (user.model_dump ++ [("created_at", .date created_at)]))
      (db'.insert_one .users id
        ({ user with password := password }.model_dump ++ [("created_at", .date created_at)])) := by
  have hok : ∀ user : UserCreate, passwordOk (user.model_dump ++ [("created_at", .date created_at)]) =
      decide (6 ≤ user.password.length) := fun user => rfl
  have husers : (db.coll .users).docs.map mask = (db'.coll .users).docs.map mask := h.users
  have hmask : mask (user.model_dump ++ [("created_at", .date created_at)]) =
      mask ({ user with password := password }.model_dump ++ [("created_at", .date created_at)]) := rfl
  have hrel := validated_insertOne_like husers id hmask (by rw [hok, hok, decide_eq_decide.mpr hp])
  have hencodable : (Value.obj (user.model_dump ++ [("created_at", .date created_at)])).encodable =
      (Value.obj ({ user with password := password }.model_dump ++
        [("created_at", .date created_at)])).encodable := rfl
  unfold Db.insert_one
  rw [← hencodable]
  split_ifs
  · exact rel_attach hrel _ _ fun x x' hab =>
      h.setUsers hab (db.idsIn_insertOne x.2) (db'.idsIn_insertOne x'.2)
  · exact .none

end Db.Like

end SocialNetwork.MongoApi

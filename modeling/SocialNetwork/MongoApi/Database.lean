import SocialNetwork.Lib.Lists
import SocialNetwork.Lib.Schema
import SocialNetwork.Lib.Pipeline

/-!
# The collections of `mongo-api` (`mongo/mongo-init.js`)

`Db` has the three collections with their validators as fields, and the ids given out so far, which
those of the documents are among. A query is a `find` or an `aggregate`; what it may return is
`Query.Returns`. A document is read only if its dates are (`Value.decodable`).
-/

namespace SocialNetwork.MongoApi

open DocStore

/-! ## Validators -/

/-- `$` stands for the end of a text, or for a newline there. -/
def upToNewline (p : List Char → Bool) (s : String) : Bool :=
  p s.toList || (s.toList.getLast? = some '\n' && p s.toList.dropLast)

/-- `^[a-zA-Z0-9_]{3,30}$`. -/
def loginPattern : String → Bool :=
  upToNewline fun cs => 3 ≤ cs.length && cs.length ≤ 30 && cs.all fun c => c.isAlphanum || c = '_'

/-- `^.+@.+\..+$`. -/
def emailPattern : String → Bool :=
  upToNewline fun cs =>
    cs.all (fun c => c ≠ '\n') &&
      (List.range cs.length).any fun i => (List.range cs.length).any fun j =>
        1 ≤ i && cs[i]? = some '@' && i + 2 ≤ j && cs[j]? = some '.' && j + 2 ≤ cs.length

/-- The three collections of `social_network`. -/
inductive Coll
  | users
  | posts
  | messages
deriving DecidableEq, Repr

instance {P : Coll → Prop} [DecidablePred P] : Decidable (∀ c, P c) :=
  decidable_of_iff (P .users ∧ P .posts ∧ P .messages)
    ⟨fun h c => by cases c; exacts [h.1, h.2.1, h.2.2], fun h => ⟨h _, h _, h _⟩⟩

/-- The validators of `mongo-init.js`. -/
def schema : Coll → Schema
  | .users => .object ["login", "email", "password", "first_name", "last_name", "created_at"]
    [("login", .string loginPattern), ("email", .string emailPattern),
      ("password", .string fun s => 6 ≤ s.length), ("first_name", .text), ("last_name", .text),
      ("age", .int 0 120), ("interests", .array .text), ("created_at", .date)]
  | .posts => .object ["author_id", "content", "tags", "likes", "comments", "created_at"]
    [("author_id", .objectId), ("content", .text), ("tags", .array .text),
      ("likes", .array .objectId),
      ("comments", .array (.object ["user_id", "text", "created_at"]
        [("user_id", .objectId), ("text", .text), ("created_at", .date)])),
      ("created_at", .date)]
  | .messages => .object ["from_user_id", "to_user_id", "text", "is_read", "created_at"]
    [("from_user_id", .objectId), ("to_user_id", .objectId), ("text", .text), ("is_read", .bool),
      ("created_at", .date)]

/-! ## The database -/

/-- The ids of the documents have been given out. -/
def IdsIn (issued : List ObjectId) (docs : List Doc) : Prop :=
  ∀ d ∈ docs, ∀ id, d.get "_id" = some (.oid id) → id ∈ issued

structure Db where
  users : Validated (schema .users)
  posts : Validated (schema .posts)
  messages : Validated (schema .messages)
  /-- The ids given out so far. -/
  issued : List ObjectId
  ids_issued : IdsIn issued (users.docs ++ posts.docs ++ messages.docs)

namespace Db

def empty : Db := ⟨Validated.empty, Validated.empty, Validated.empty, [], nofun⟩

def coll (db : Db) : (c : Coll) → Validated (schema c)
  | .users => db.users
  | .posts => db.posts
  | .messages => db.messages

def docs (db : Db) (c : Coll) : List Doc := (db.coll c).docs

/-- The id of a document has been given out. -/
theorem mem_issued {db : Db} {c : Coll} {d : Doc} (hd : d ∈ db.docs c) {id : ObjectId}
    (hid : d.get "_id" = some (.oid id)) : id ∈ db.issued := by
  refine db.ids_issued d ?_ id hid
  rw [List.mem_append, List.mem_append]
  cases c with
  | users => exact .inl (.inl hd)
  | posts => exact .inl (.inr hd)
  | messages => exact .inr hd

/-- The ids of the documents have been given. -/
theorem idsIn_docs (db : Db) (c : Coll) (new : List ObjectId) : IdsIn (db.issued ++ new) (db.docs c) :=
  fun _ hd _ hid => List.mem_append_left _ (mem_issued hd hid)

/-- Replace a collection by one whose ids are among the old ones and the new ones. -/
def setColl (db : Db) (new : List ObjectId) : (c : Coll) → (x : Validated (schema c)) →
    IdsIn (db.issued ++ new) x.docs → Db
  | .users, x, h =>
    ⟨x, db.posts, db.messages, db.issued ++ new, List.forall_mem_append.mpr
      ⟨List.forall_mem_append.mpr ⟨h, db.idsIn_docs .posts new⟩, db.idsIn_docs .messages new⟩⟩
  | .posts, x, h =>
    ⟨db.users, x, db.messages, db.issued ++ new, List.forall_mem_append.mpr
      ⟨List.forall_mem_append.mpr ⟨db.idsIn_docs .users new, h⟩, db.idsIn_docs .messages new⟩⟩
  | .messages, x, h =>
    ⟨db.users, db.posts, x, db.issued ++ new, List.forall_mem_append.mpr
      ⟨List.forall_mem_append.mpr ⟨db.idsIn_docs .users new, db.idsIn_docs .posts new⟩, h⟩⟩

variable {new : List ObjectId}

/-- One collection is replaced, the others are kept. -/
@[simp] theorem docs_setColl (db : Db) (c : Coll) (x : Validated (schema c))
    (h : IdsIn (db.issued ++ new) x.docs) (c' : Coll) :
    (db.setColl new c x h).docs c' = if c' = c then x.docs else db.docs c' := by
  cases c <;> cases c' <;> rfl

@[simp] theorem issued_setColl (db : Db) (c : Coll) (x : Validated (schema c))
    (h : IdsIn (db.issued ++ new) x.docs) : (db.setColl new c x h).issued = db.issued ++ new := by
  cases c <;> rfl

/-! ## What the validator of posts guarantees -/

section Posts

variable {db : Db} {d : Doc}

/-- A field of a post. -/
theorem post_field (hd : d ∈ db.docs .posts) {f : String} {s : Schema}
    (hreq : f ∈ ["author_id", "content", "tags", "likes", "comments", "created_at"])
    (hf : (f, s) ∈ [("author_id", .objectId), ("content", .text), ("tags", .array .text),
      ("likes", .array .objectId),
      ("comments", .array (.object ["user_id", "text", "created_at"]
        [("user_id", .objectId), ("text", .text), ("created_at", .date)])),
      ("created_at", Schema.date)]) : ∃ v, d.get f = some v ∧ s.holds v = true :=
  Schema.exists_of_required (db.posts.valid d hd) hreq hf

/-- The likes of a stored post are ids. -/
theorem post_likes (hd : d ∈ db.docs .posts) :
    ∃ xs, d.get "likes" = some (.arr xs) ∧ ∀ x ∈ xs, ∃ id, x = .oid id := by
  obtain ⟨v, hv, hholds⟩ := post_field hd (f := "likes") (s := .array .objectId) (by decide) (by simp)
  cases v with
  | arr xs =>
    rw [Schema.holds, List.all_eq_true] at hholds
    exact ⟨xs, hv, fun x hx => Schema.holds_objectId (hholds x hx)⟩
  | _ => cases hholds

/-- The comments of a stored post name their authors. -/
theorem post_comments (hd : d ∈ db.docs .posts) :
    ∃ xs, d.get "comments" = some (.arr xs) ∧ ∀ x ∈ xs, ∃ comment id, x = .obj comment ∧
      Doc.get comment "user_id" = some (.oid id) := by
  obtain ⟨v, hv, hholds⟩ := post_field hd (f := "comments") (s := .array (.object
    ["user_id", "text", "created_at"]
      [("user_id", .objectId), ("text", .text), ("created_at", .date)])) (by decide) (by simp)
  cases v with
  | arr xs =>
    rw [Schema.holds, List.all_eq_true] at hholds
    refine ⟨xs, hv, fun x hx => ?_⟩
    have hx := hholds x hx
    cases x with
    | obj comment =>
      obtain ⟨w, hw, hid⟩ := Schema.exists_of_required (f := "user_id") (s := .objectId) hx
        (by decide) (by simp)
      obtain ⟨id, rfl⟩ := Schema.holds_objectId hid
      exact ⟨comment, id, rfl, hw⟩
    | _ => cases hx
  | _ => cases hholds

/-- A stored post has a date. -/
theorem post_created_at (hd : d ∈ db.docs .posts) : ∃ ms, d.get "created_at" = some (.date ms) := by
  obtain ⟨v, hv, hholds⟩ := post_field hd (f := "created_at") (s := .date) (by decide) (by simp)
  cases v with
  | date ms => exact ⟨ms, hv⟩
  | _ => cases hholds

end Posts

/-! ## Writes -/

/-- An insertion adds the id of the new document, and the other writes add none. -/
theorem idsIn_insertOne (db : Db) {c : Coll} {id : ObjectId} {doc : Doc} {x : Validated (schema c)}
    (h : (db.coll c).insertOne id doc = some x) : IdsIn (db.issued ++ [id]) x.docs := by
  intro d hd i hi
  rw [Validated.insertOne_eq_some h] at hd
  rcases List.mem_append.mp hd with hd | hd
  · exact List.mem_append_left _ (mem_issued hd hi)
  · rw [List.mem_singleton.mp hd] at hi
    cases hi
    exact List.mem_append_right _ (List.mem_singleton_self _)

/-- An update brings no id. -/
theorem idsIn_updateOne (db : Db) {c : Coll} {filter : Filter} {update : Update}
    {x : Nat × Validated (schema c)} (h : (db.coll c).updateOne filter update = some x) :
    IdsIn (db.issued ++ []) x.2.docs := by
  intro d hd id hid
  rw [List.append_nil]
  rcases Validated.updateOne_eq_some h with
    ⟨l₁, d₀, l₂, d', hbefore, -, -, -, hafter, heq⟩ | ⟨-, -, hsame⟩
  · have hdocs : db.docs c = l₁ ++ d₀ :: l₂ := hbefore
    rw [hafter] at hd
    rcases Lists.mem_middle.mp hd with rfl | hd
    · rw [heq] at hid
      exact mem_issued (hdocs ▸ Lists.mem_middle.mpr (.inl rfl)) hid
    · exact mem_issued (hdocs ▸ Lists.mem_middle.mpr (.inr hd)) hid
  · rw [hsame] at hd
    exact mem_issued hd hid

theorem idsIn_deleteOne (db : Db) (c : Coll) (filter : Filter) :
    IdsIn (db.issued ++ []) ((db.coll c).deleteOne filter).2.docs := by
  intro d hd id hid
  rw [List.append_nil]
  exact mem_issued (c := c) ((deleteOne_sublist filter (db.coll c).docs).subset hd) hid

/-- `insert_one` of a document that gets an id never given out before. -/
def insert_one (db : Db) (c : Coll) (id : ObjectId) (doc : Doc) : Option Db :=
  if (Value.obj doc).encodable then
    ((db.coll c).insertOne id doc).attach.map fun x =>
      db.setColl [id] c x.1 (db.idsIn_insertOne x.2)
  else none

/-- `update_one`, and how many documents matched. -/
def update_one (db : Db) (c : Coll) (filter : Filter) (update : Update) : Option (Nat × Db) :=
  if filter.encodable && (Value.obj update.set).encodable then
    ((db.coll c).updateOne filter update).attach.map fun x =>
      (x.1.1, db.setColl [] c x.1.2 (db.idsIn_updateOne x.2))
  else none

/-- `delete_one`, and how many documents it deleted. -/
def delete_one (db : Db) (c : Coll) (filter : Filter) : Nat × Db :=
  (((db.coll c).deleteOne filter).1,
    db.setColl [] c ((db.coll c).deleteOne filter).2 (db.idsIn_deleteOne c filter))

/-! ## What a write does -/

section Writes

variable {db db' : Db} {c : Coll}

/-- The document comes last, and its id is given. -/
theorem docs_insert_one {id : ObjectId} {doc : Doc} (h : db.insert_one c id doc = some db') :
    db'.docs c = db.docs c ++ [("_id", .oid id) :: doc] ∧
      (∀ c', c' ≠ c → db'.docs c' = db.docs c') ∧ db'.issued = db.issued ++ [id] := by
  unfold insert_one at h
  split_ifs at h
  obtain ⟨⟨x, hx⟩, -, rfl⟩ := Option.map_eq_some_iff.mp h
  refine ⟨?_, fun c' hc' => ?_, issued_setColl ..⟩
  · rw [docs_setColl, if_pos rfl]
    exact Validated.insertOne_eq_some hx
  · rw [docs_setColl, if_neg hc']

/-- An update changes one document and not its id, or nothing matches. -/
theorem docs_update_one {filter : Filter} {update : Update} {n : Nat}
    (h : db.update_one c filter update = some (n, db')) :
    ((∃ l₁ d l₂ d', db.docs c = l₁ ++ d :: l₂ ∧ filter.holds d = true ∧ update.apply d = some d' ∧
        n = 1 ∧ db'.docs c = l₁ ++ d' :: l₂ ∧ d'.get "_id" = d.get "_id") ∨
      ((∀ d ∈ db.docs c, filter.holds d = false) ∧ n = 0 ∧ db'.docs c = db.docs c)) ∧
    (∀ c', c' ≠ c → db'.docs c' = db.docs c') ∧ db'.issued = db.issued := by
  unfold update_one at h
  split_ifs at h
  obtain ⟨⟨⟨n, x⟩, hx⟩, -, heq⟩ := Option.map_eq_some_iff.mp h
  cases heq
  refine ⟨?_, fun c' hc' => ?_, (issued_setColl ..).trans (List.append_nil _)⟩
  · rw [docs_setColl, if_pos rfl]
    exact Validated.updateOne_eq_some hx
  · rw [docs_setColl, if_neg hc']

/-- A delete removes one document, or nothing matches. -/
theorem docs_delete_one (db : Db) (c : Coll) (filter : Filter) :
    ((∃ l₁ d l₂, db.docs c = l₁ ++ d :: l₂ ∧ findOne filter (db.docs c) = some d ∧
        filter.holds d = true ∧ (db.delete_one c filter).1 = 1 ∧
        (db.delete_one c filter).2.docs c = l₁ ++ l₂) ∨
      ((∀ d ∈ db.docs c, filter.holds d = false) ∧ findOne filter (db.docs c) = none ∧
        (db.delete_one c filter).1 = 0 ∧ (db.delete_one c filter).2.docs c = db.docs c)) ∧
    (∀ c', c' ≠ c → (db.delete_one c filter).2.docs c' = db.docs c') ∧
    (db.delete_one c filter).2.issued = db.issued := by
  unfold delete_one
  refine ⟨?_, fun c' hc' => ?_, (issued_setColl ..).trans (List.append_nil _)⟩
  · rw [docs_setColl, if_pos rfl]
    have hresult : ((db.coll c).deleteOne filter).1 = (DocStore.deleteOne filter (db.docs c)).1 ∧
        ((db.coll c).deleteOne filter).2.docs = (DocStore.deleteOne filter (db.docs c)).2 := ⟨rfl, rfl⟩
    rw [hresult.1, hresult.2]
    rcases DocStore.deleteOne_cases filter (db.docs c) with
      ⟨l₁, d, l₂, hc, hfound, hd, hdel⟩ | ⟨hno, hfound, hdel⟩
    · rw [hdel]
      exact .inl ⟨l₁, d, l₂, hc, hfound, hd, rfl, rfl⟩
    · rw [hdel]
      exact .inr ⟨hno, hfound, rfl, rfl⟩
  · rw [docs_setColl, if_neg hc']

/-- A document after an insertion was there, or it is the new one. -/
theorem mem_insert_one {id : ObjectId} {doc : Doc} (h : db.insert_one c id doc = some db') {c' : Coll}
    {x : Doc} (hx : x ∈ db'.docs c') : x ∈ db.docs c' ∨ c' = c ∧ x = ("_id", .oid id) :: doc := by
  obtain ⟨hdocs, hother, -⟩ := docs_insert_one h
  by_cases hc : c' = c
  · subst hc
    rw [hdocs] at hx
    rcases List.mem_append.mp hx with hx | hx
    · exact .inl hx
    · exact .inr ⟨rfl, List.mem_singleton.mp hx⟩
  · rw [hother c' hc] at hx
    exact .inl hx

/-- A document after an update was there, or it is the updated one. -/
theorem mem_update_one {filter : Filter} {update : Update} {n : Nat}
    (h : db.update_one c filter update = some (n, db')) {c' : Coll} {x : Doc} (hx : x ∈ db'.docs c') :
    x ∈ db.docs c' ∨ c' = c ∧ ∃ d ∈ db.docs c, filter.holds d = true ∧ update.apply d = some x ∧
      x.get "_id" = d.get "_id" := by
  obtain ⟨hdocs, hother, -⟩ := docs_update_one h
  by_cases hc : c' = c
  · subst hc
    rcases hdocs with ⟨l₁, d, l₂, d', hbefore, hholds, happly, -, hafter, hid⟩ | ⟨-, -, hsame⟩
    · rw [hafter] at hx
      rw [hbefore]
      rcases Lists.mem_middle.mp hx with rfl | hx
      · exact .inr ⟨rfl, d, Lists.mem_middle.mpr (.inl rfl), hholds, happly, hid⟩
      · exact .inl (Lists.mem_middle.mpr (.inr hx))
    · rw [hsame] at hx
      exact .inl hx
  · rw [hother c' hc] at hx
    exact .inl hx

/-- A document after a deletion was there. -/
theorem mem_delete_one {filter : Filter} {c' : Coll} {x : Doc}
    (hx : x ∈ (db.delete_one c filter).2.docs c') : x ∈ db.docs c' := by
  obtain ⟨hdocs, hother, -⟩ := docs_delete_one db c filter
  by_cases hc : c' = c
  · subst hc
    rcases hdocs with ⟨l₁, d, l₂, hbefore, -, -, -, hafter⟩ | ⟨-, -, -, hsame⟩
    · rw [hafter] at hx
      rw [hbefore]
      exact Lists.mem_middle.mpr (.inr hx)
    · rwa [hsame] at hx
  · rwa [hother c' hc] at hx

end Writes

/-! ## Ids -/

section Ids

variable {db db' : Db} {c : Coll}

/-- The ids of the documents, in order. -/
def ids (db : Db) (c : Coll) : List (Option Value) := (db.docs c).map (·.get "_id")

/-- A document is found by its id. -/
theorem findOne_iff {id : ObjectId} :
    (∃ d, findOne (.field "_id" (.oid id)) (db.docs c) = some d) ↔ some (.oid id) ∈ db.ids c := by
  constructor
  · rintro ⟨d, hd⟩
    obtain ⟨hmem, hid⟩ := Validated.findOne_id (c := db.coll c) hd
    exact List.mem_map.mpr ⟨d, hmem, hid⟩
  · intro h
    obtain ⟨d, hmem, hid⟩ := List.mem_map.mp h
    exact ⟨d, Validated.findOne_of_mem (c := db.coll c) hmem hid⟩

/-- The ids after an insertion. -/
theorem mem_ids_insert_one {id : ObjectId} {doc : Doc} (h : db.insert_one c id doc = some db')
    {c' : Coll} {v : Option Value} :
    v ∈ db'.ids c' ↔ v ∈ db.ids c' ∨ c' = c ∧ v = some (.oid id) := by
  obtain ⟨hdocs, hother, -⟩ := docs_insert_one h
  unfold ids
  by_cases hc : c' = c
  · subst hc
    rw [hdocs, List.map_append, List.mem_append]
    show _ ∨ v ∈ [some (.oid id)] ↔ _
    rw [List.mem_singleton]
    tauto
  · rw [hother c' hc]
    tauto

/-- An update keeps the ids. -/
theorem ids_update_one {filter : Filter} {update : Update} {n : Nat}
    (h : db.update_one c filter update = some (n, db')) (c' : Coll) : db'.ids c' = db.ids c' := by
  obtain ⟨hdocs, hother, -⟩ := docs_update_one h
  unfold ids
  by_cases hc : c' = c
  · subst hc
    rcases hdocs with ⟨l₁, d, l₂, d', hbefore, -, -, -, hafter, hid⟩ | ⟨-, -, hsame⟩
    · rw [hbefore, hafter]
      simp only [List.map_append, List.map_cons, hid]
    · rw [hsame]
  · rw [hother c' hc]

/-- A delete removes the id of the document that it finds. -/
theorem mem_ids_delete_one (filter : Filter) {c' : Coll} {v : Option Value} :
    v ∈ (db.delete_one c filter).2.ids c' ↔
      v ∈ db.ids c' ∧ (c' = c → ∀ d, findOne filter (db.docs c) = some d → d.get "_id" ≠ v) := by
  obtain ⟨hdocs, hother, -⟩ := docs_delete_one db c filter
  unfold ids
  by_cases hc : c' = c
  · subst hc
    rcases hdocs with ⟨l₁, d, l₂, hbefore, hfound, -, -, hafter⟩ | ⟨-, hfound, -, hsame⟩
    · have hnodup := (db.coll c').nodup
      have hcoll : (db.coll c').docs = l₁ ++ d :: l₂ := hbefore
      rw [hcoll, List.map_append, List.map_cons] at hnodup
      -- no other document has the id
      have hnot := (List.nodup_cons.mp (List.nodup_middle.mp hnodup)).1
      rw [← List.map_append] at hnot
      have hmem : v ∈ (l₁ ++ d :: l₂).map (·.get "_id") ↔
          v = d.get "_id" ∨ v ∈ (l₁ ++ l₂).map (·.get "_id") := by
        rw [List.map_append, List.map_append, List.map_cons]
        exact Lists.mem_middle
      rw [hfound, hafter, hbefore, hmem]
      constructor
      · intro hv
        refine ⟨.inr hv, fun _ d' hd' heq => hnot ?_⟩
        rw [Option.some.inj hd', heq]
        exact hv
      · rintro ⟨hv, hne⟩
        exact hv.resolve_left fun heq => hne rfl d rfl heq.symm
    · rw [hsame, hfound]
      exact ⟨fun hv => ⟨hv, fun _ => nofun⟩, fun hv => hv.1⟩
  · rw [hother c' hc]
    exact ⟨fun hv => ⟨hv, fun heq => absurd heq hc⟩, fun hv => hv.1⟩

end Ids

end Db

/-! ## Queries -/

inductive Query
  /-- `find(filter)`, and `sort` where there are keys. -/
  | find (coll : Coll) (filter : Filter) (sort : List (String × Bool))
  | aggregate (coll : Coll) (pipeline : Pipeline Coll)

/-- The rows can be read. -/
def Readable (rows : List Doc) : Prop := ∀ row ∈ rows, (Value.obj row).decodable = true

instance (rows : List Doc) : Decidable (Readable rows) :=
  inferInstanceAs (Decidable (∀ row ∈ rows, (Value.obj row).decodable = true))

/-- The rows may be what the query returns now, and all of them can be read. Without `sort` they are
in natural order. -/
def Query.Returns (db : Db) : Query → List Doc → Prop
  | find coll filter sort, rows =>
    filter.encodable = true ∧ Readable rows ∧
      if sort = [] then rows = DocStore.find filter (db.docs coll)
      else rows.Perm (DocStore.find filter (db.docs coll)) ∧ Sorted sort rows
  | aggregate coll pipeline, rows =>
    pipeline.Returns db.docs (db.docs coll) rows ∧ Readable rows

instance (db : Db) : (q : Query) → (rows : List Doc) → Decidable (q.Returns db rows)
  | .find coll filter sort, rows =>
    inferInstanceAs (Decidable (filter.encodable = true ∧ Readable rows ∧
      if sort = [] then rows = DocStore.find filter (db.docs coll)
      else rows.Perm (DocStore.find filter (db.docs coll)) ∧ Sorted sort rows))
  | .aggregate coll pipeline, rows =>
    inferInstanceAs (Decidable (pipeline.Returns db.docs (db.docs coll) rows ∧ Readable rows))

end SocialNetwork.MongoApi

import SocialNetwork.Lib.Collection

/-!
# Collections with a validator

`Schema` is the part of `$jsonSchema` that validators use, and `Validated` a collection whose
documents satisfy one and have object ids of their own. An insert or an update that would break
this is refused, as a whole.
-/

namespace DocStore

/-- The validators of one value. -/
inductive Schema
  /-- `bsonType: "string"`, with a `pattern` or a `minLength`. -/
  | string (check : String → Bool)
  /-- `bsonType: "int"`, with `minimum` and `maximum`. -/
  | int (minimum maximum : Int)
  | bool
  | date
  | objectId
  | array (items : Schema)
  | object (required : List String) (properties : List (String × Schema))

namespace Schema

/-- The conditions on the fields of an object. -/
def properties : Schema → List (String × Schema)
  | object _ properties => properties
  | _ => []

/-- A string with no further conditions. -/
def text : Schema := string fun _ => true

mutual

def holds : Schema → Value → Bool
  | string check, .str s => check s
  | int minimum maximum, .int n => minimum ≤ n && n ≤ maximum
  | bool, .bool _ => true
  | date, .date _ => true
  | objectId, .oid _ => true
  | array items, .arr vs => vs.all fun v => holds items v
  | object required properties, .obj fs =>
    required.all (fun f => (fs.lookup f).isSome) && holdsAll properties fs
  | _, _ => false

/-- A property says nothing about a document without its field. -/
def holdsAll : List (String × Schema) → List (String × Value) → Bool
  | [], _ => true
  | (f, s) :: properties, fs =>
    (match fs.lookup f with
      | none => true
      | some v => holds s v) && holdsAll properties fs

end

/-- A property of a schema holds of the field. -/
theorem holds_of_mem {properties : List (String × Schema)} {fs : List (String × Value)}
    (h : holdsAll properties fs = true) {f : String} {s : Schema} (hf : (f, s) ∈ properties)
    {v : Value} (hv : fs.lookup f = some v) : s.holds v = true := by
  induction properties with
  | nil => cases hf
  | cons x properties ih =>
    obtain ⟨g, t⟩ := x
    rw [holdsAll, Bool.and_eq_true] at h
    rcases List.mem_cons.mp hf with heq | hf
    · cases heq
      have hhead := h.1
      rw [hv] at hhead
      exact hhead
    · exact ih h.2 hf

/-- The properties are those of the fields they are about. -/
theorem holdsAll_congr {properties : List (String × Schema)} {fs gs : List (String × Value)}
    (h : ∀ x ∈ properties, (fs.lookup x.1).all x.2.holds = (gs.lookup x.1).all x.2.holds) :
    holdsAll properties fs = holdsAll properties gs := by
  induction properties with
  | nil => rfl
  | cons x properties ih =>
    obtain ⟨f, s⟩ := x
    have hall : ∀ fs : List (String × Value), holdsAll ((f, s) :: properties) fs =
        ((fs.lookup f).all s.holds && holdsAll properties fs) := by
      intro fs
      rw [holdsAll]
      cases fs.lookup f <;> rfl
    rw [hall, hall, h (f, s) List.mem_cons_self, ih fun x hx => h x (List.mem_cons_of_mem _ hx)]

/-- A required field with a schema is there and satisfies it. -/
theorem exists_of_required {required : List String} {properties : List (String × Schema)}
    {d : Doc} (h : (object required properties).holds (.obj d) = true) {f : String}
    (hreq : f ∈ required) {s : Schema} (hf : (f, s) ∈ properties) :
    ∃ v, d.get f = some v ∧ s.holds v = true := by
  rw [holds, Bool.and_eq_true, List.all_eq_true] at h
  obtain ⟨v, hv⟩ := Option.isSome_iff_exists.mp (h.1 f hreq)
  exact ⟨v, hv, holds_of_mem h.2 hf hv⟩

/-- Every property that is present is checked. -/
theorem holdsAll_iff {properties : List (String × Schema)} {d : Doc} :
    holdsAll properties d = true ↔
      ∀ x ∈ properties, ∀ v, d.get x.1 = some v → x.2.holds v = true := by
  induction properties with
  | nil => exact iff_of_true rfl nofun
  | cons x properties ih =>
    obtain ⟨f, s⟩ := x
    rw [holdsAll, Bool.and_eq_true, ih, List.forall_mem_cons]
    apply and_congr_left'
    show _ ↔ ∀ v, d.lookup f = some v → s.holds v = true
    cases d.lookup f with
    | none => exact iff_of_true rfl nofun
    | some v =>
      constructor
      · intro hholds w hw
        rw [← Option.some.inj hw]
        exact hholds
      · intro hall
        exact hall v rfl

/-- What the validator of an object asks for. -/
theorem holds_object_iff {required : List String} {properties : List (String × Schema)} {d : Doc} :
    (object required properties).holds (.obj d) = true ↔
      (∀ f ∈ required, (d.get f).isSome = true) ∧
        ∀ x ∈ properties, ∀ v, d.get x.1 = some v → x.2.holds v = true := by
  rw [holds, Bool.and_eq_true, List.all_eq_true, holdsAll_iff]
  exact Iff.rfl

/-- Fields that are set may be any that satisfy their schemas. -/
theorem holds_setAll_iff {required : List String} {properties : List (String × Schema)} {d fs : Doc}
    (hnodup : (fs.map Prod.fst).Nodup) (h : (object required properties).holds (.obj d) = true) :
    (object required properties).holds (.obj (d.setAll fs)) = true ↔
      ∀ x ∈ fs, ∀ s, (x.1, s) ∈ properties → s.holds x.2 = true := by
  rw [holds_object_iff] at h ⊢
  constructor
  · intro hholds x hx s hs
    exact hholds.2 (x.1, s) hs x.2 (Doc.get_setAll_of_mem d hnodup hx)
  · intro hfields
    -- a field has the value that was set, or the one it had
    have hcases : ∀ f, (∃ v, (f, v) ∈ fs ∧ (d.setAll fs).get f = some v) ∨
        (d.setAll fs).get f = d.get f := by
      intro f
      by_cases hf : f ∈ fs.map Prod.fst
      · obtain ⟨x, hx, rfl⟩ := List.mem_map.mp hf
        exact .inl ⟨x.2, hx, Doc.get_setAll_of_mem d hnodup hx⟩
      · exact .inr (Doc.get_setAll_of_notMem d hf)
    constructor
    · intro f hf
      rcases hcases f with ⟨v, -, hv⟩ | hsame
      · rw [hv]
        rfl
      · rw [hsame]
        exact h.1 f hf
    · intro x hx v hv
      rcases hcases x.1 with ⟨w, hw, hget⟩ | hsame
      · rw [hget] at hv
        cases hv
        exact hfields _ hw x.2 hx
      · rw [hsame] at hv
        exact h.2 x hx v hv

theorem holds_objectId {v : Value} (h : objectId.holds v = true) : ∃ id, v = .oid id := by
  cases v with
  | oid id => exact ⟨id, rfl⟩
  | _ => cases h

end Schema

/-! ## Validated collections -/

/-- The documents of a collection, with the `_id` each of them has. -/
structure Validated (schema : Schema) where
  docs : List Doc
  valid : ∀ d ∈ docs, schema.holds (.obj d) = true
  id : ∀ d ∈ docs, ∃ i, d.get "_id" = some (.oid i)
  nodup : (docs.map (·.get "_id")).Nodup

namespace Validated

variable {schema : Schema}

def empty : Validated schema where
  docs := []
  valid _ h := absurd h List.not_mem_nil
  id _ h := absurd h List.not_mem_nil
  nodup := List.nodup_nil

/-- `insert_one` of a document without an `_id`, which gets one. -/
def insertOne (i : ObjectId) (d : Doc) (c : Validated schema) : Option (Validated schema) :=
  let new : Doc := ("_id", .oid i) :: d
  if h : schema.holds (.obj new) = true ∧ ((c.docs ++ [new]).map (·.get "_id")).Nodup then
    some
      { docs := c.docs ++ [new]
        valid := fun x hx => by
          rcases List.mem_append.mp hx with hx | hx
          · exact c.valid x hx
          · rw [List.mem_singleton.mp hx]
            exact h.1
        id := fun x hx => by
          rcases List.mem_append.mp hx with hx | hx
          · exact c.id x hx
          · rw [List.mem_singleton.mp hx]
            exact ⟨i, rfl⟩
        nodup := h.2 }
  else none

/-- `update_one` without an upsert; an `_id` cannot be changed. -/
def updateOne (f : Filter) (u : Update) (c : Validated schema) :
    Option (Nat × Validated schema) :=
  match DocStore.updateOne f u false c.docs with
  | none => none
  | some (n, docs) =>
    if h : (∀ d ∈ docs, schema.holds (.obj d) = true) ∧
        docs.map (·.get "_id") = c.docs.map (·.get "_id") then
      some (n,
        { docs := docs
          valid := h.1
          id := fun d hd => by
            have hmem : d.get "_id" ∈ c.docs.map (·.get "_id") :=
              h.2 ▸ List.mem_map_of_mem hd
            obtain ⟨d', hd', heq⟩ := List.mem_map.mp hmem
            rw [← heq]
            exact c.id d' hd'
          nodup := h.2 ▸ c.nodup })
    else none

def deleteOne (f : Filter) (c : Validated schema) : Nat × Validated schema :=
  ((DocStore.deleteOne f c.docs).1,
    { docs := (DocStore.deleteOne f c.docs).2
      valid := fun d hd => c.valid d (deleteOne_sublist f c.docs |>.subset hd)
      id := fun d hd => c.id d (deleteOne_sublist f c.docs |>.subset hd)
      nodup := c.nodup.sublist ((deleteOne_sublist f c.docs).map _) })

/-- An insert adds one document at the end. -/
theorem insertOne_eq_some {i : ObjectId} {d : Doc} {c c' : Validated schema}
    (h : c.insertOne i d = some c') : c'.docs = c.docs ++ [("_id", .oid i) :: d] := by
  simp only [insertOne] at h
  split_ifs at h with hok
  cases h
  rfl

/-- An update changes one document, or none when nothing matches. -/
theorem updateOne_eq_some {f : Filter} {u : Update} {c c' : Validated schema} {n : Nat}
    (h : c.updateOne f u = some (n, c')) :
    (∃ l₁ d l₂ d', c.docs = l₁ ++ d :: l₂ ∧ f.holds d = true ∧ u.apply d = some d' ∧ n = 1 ∧
        c'.docs = l₁ ++ d' :: l₂ ∧ d'.get "_id" = d.get "_id") ∨
      ((∀ d ∈ c.docs, f.holds d = false) ∧ n = 0 ∧ c'.docs = c.docs) := by
  unfold updateOne at h
  split at h
  · cases h
  · next n' docs hu =>
    split_ifs at h with hok
    cases h
    rcases DocStore.updateOne_eq_some hu with
      ⟨l₁, d, l₂, d', hc, hf, hd, hn, hc'⟩ | ⟨d', -, hup, -⟩ | ⟨hno, -, hn, hc'⟩
    · refine .inl ⟨l₁, d, l₂, d', hc, hf, hd, hn, hc', ?_⟩
      have hids := hok.2
      rw [hc, hc', List.map_append, List.map_append, List.map_cons, List.map_cons] at hids
      exact (List.cons.inj (List.append_cancel_left hids)).1
    · cases hup
    · exact .inr ⟨hno, hn, hc'⟩

/-- Setting fields of the document that is found, in its place, if it still satisfies the schema. -/
theorem updateOne_set {c : Validated schema} {f : Filter} {d fs : Doc}
    (hfound : findOne f c.docs = some d) (hid : "_id" ∉ fs.map Prod.fst) :
    if schema.holds (.obj (d.setAll fs)) = true then
      ∃ l₁ l₂ c', c.docs = l₁ ++ d :: l₂ ∧ (∀ x ∈ l₁, f.holds x = false) ∧
        c.updateOne f { set := fs } = some (1, c') ∧ c'.docs = l₁ ++ d.setAll fs :: l₂
    else c.updateOne f { set := fs } = none := by
  obtain ⟨hholds, l₁, l₂, hdocs, hbefore⟩ := List.find?_eq_some_iff_append.mp hfound
  have hupdate : DocStore.updateOne f { set := fs } false c.docs = some (1, l₁ ++ d.setAll fs :: l₂) := by
    have hfind : c.docs.find? f.holds = some d := hfound
    simp only [DocStore.updateOne, hfind, Update.apply_set, Option.map_some]
    rw [hdocs, replaceFirst_split (fun x hx => by simpa using hbefore x hx) hholds]
  -- the ids are those of before, so uniqueness needs no check
  have hsame : (l₁ ++ d.setAll fs :: l₂).map (·.get "_id") = c.docs.map (·.get "_id") := by
    rw [hdocs, List.map_append, List.map_append, List.map_cons, List.map_cons,
      Doc.get_setAll_of_notMem d hid]
  have hvalid : (∀ x ∈ l₁ ++ d.setAll fs :: l₂, schema.holds (.obj x) = true) ↔
      schema.holds (.obj (d.setAll fs)) = true := by
    constructor
    · intro hall
      exact hall _ (List.mem_append_right _ List.mem_cons_self)
    · intro hset x hx
      rcases List.mem_append.mp hx with hx | hx
      · exact c.valid x (hdocs ▸ List.mem_append_left _ hx)
      · rcases List.mem_cons.mp hx with rfl | hx
        · exact hset
        · exact c.valid x (hdocs ▸ List.mem_append_right _ (List.mem_cons_of_mem _ hx))
  simp only [updateOne, hupdate, hvalid, hsame, and_true]
  split_ifs with hset
  · exact ⟨l₁, l₂, _, hdocs, fun x hx => by simpa using hbefore x hx, rfl, rfl⟩
  · rfl

/-- An insertion of a document with a new `_id` succeeds if the document satisfies the schema. -/
theorem insertOne_isSome {c : Validated schema} {i : ObjectId} {d : Doc}
    (hnew : ∀ x ∈ c.docs, x.get "_id" ≠ some (.oid i)) :
    (c.insertOne i d).isSome = schema.holds (.obj (("_id", .oid i) :: d)) := by
  have hnodup : ((c.docs ++ [("_id", .oid i) :: d]).map (·.get "_id")).Nodup := by
    rw [List.map_append, List.map_singleton, ← List.concat_eq_append]
    apply c.nodup.concat
    intro hmem
    obtain ⟨x, hx, hget⟩ := List.mem_map.mp hmem
    exact hnew x hx hget
  simp only [insertOne, hnodup, and_true]
  split_ifs with hholds
  · exact hholds.symm
  · exact (Bool.eq_false_iff.mpr hholds).symm

/-- A document that is matched by its `_id` has it. -/
theorem id_of_holds {c : Validated schema} {i : ObjectId} {d : Doc} (hd : d ∈ c.docs)
    (h : (Filter.field "_id" (.oid i)).holds d = true) : d.get "_id" = some (.oid i) := by
  obtain ⟨j, hj⟩ := c.id d hd
  rw [Filter.holds_field, hj, fieldEq] at h
  · simp only [decide_eq_true_eq] at h
    rw [hj, h]
  · intro xs hxs
    cases hxs

/-- A document found by its `_id` has it. -/
theorem findOne_id {c : Validated schema} {i : ObjectId} {d : Doc}
    (h : findOne (.field "_id" (.oid i)) c.docs = some d) :
    d ∈ c.docs ∧ d.get "_id" = some (.oid i) :=
  ⟨List.mem_of_find?_eq_some h, id_of_holds (List.mem_of_find?_eq_some h) (List.find?_some h)⟩

/-- A document is found by its `_id`. -/
theorem findOne_of_mem {c : Validated schema} {i : ObjectId} {d : Doc} (hd : d ∈ c.docs)
    (hid : d.get "_id" = some (.oid i)) : findOne (.field "_id" (.oid i)) c.docs = some d := by
  have hfound : (findOne (.field "_id" (.oid i)) c.docs).isSome = true := by
    rw [findOne, List.find?_isSome]
    refine ⟨d, hd, ?_⟩
    rw [Filter.holds_field, hid]
    exact decide_eq_true rfl
  obtain ⟨d', hd'⟩ := Option.isSome_iff_exists.mp hfound
  obtain ⟨hmem, hget⟩ := findOne_id hd'
  rw [hd', List.inj_on_of_nodup_map c.nodup hmem hd (hget.trans hid.symm)]

end Validated

end DocStore

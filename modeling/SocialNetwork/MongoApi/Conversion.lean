import SocialNetwork.MongoApi.Json

/-!
# Documents and their JSON

`Value.stringify` replaces every object id of a value, at any depth, by its digits. `to_json` does
this to a document whose ids stand where it looks for them (`Convertible`), and `of_json` undoes it.
-/

namespace DocStore

namespace Value

mutual

/-- There is no object id in the value, at any depth. -/
def oidFree : Value → Bool
  | .oid _ => false
  | .arr vs => oidFreeList vs
  | .obj fs => oidFreeFields fs
  | _ => true

def oidFreeList : List Value → Bool
  | [] => true
  | v :: vs => oidFree v && oidFreeList vs

def oidFreeFields : List (String × Value) → Bool
  | [] => true
  | (_, v) :: fs => oidFree v && oidFreeFields fs

end

mutual

/-- Every object id of the value becomes its digits, and nothing else changes. -/
def stringify : Value → Value
  | .oid id => .str id.hex
  | .arr vs => .arr (stringifyList vs)
  | .obj fs => .obj (stringifyFields fs)
  | v => v

def stringifyList : List Value → List Value
  | [] => []
  | v :: vs => stringify v :: stringifyList vs

def stringifyFields : List (String × Value) → List (String × Value)
  | [] => []
  | (f, v) :: fs => (f, stringify v) :: stringifyFields fs

end

mutual

theorem oidFree_stringify : (v : Value) → v.stringify.oidFree = true
  | .null | .bool _ | .int _ | .double _ | .str _ | .oid _ | .date _ => rfl
  | .arr vs => oidFree_stringifyList vs
  | .obj fs => oidFree_stringifyFields fs

theorem oidFree_stringifyList : (vs : List Value) → oidFreeList (stringifyList vs) = true
  | [] => rfl
  | v :: vs => by
    rw [stringifyList, oidFreeList, oidFree_stringify v, oidFree_stringifyList vs]
    rfl

/-- What has been replaced holds no id. -/
theorem oidFree_stringifyFields :
    (fs : List (String × Value)) → oidFreeFields (stringifyFields fs) = true
  | [] => rfl
  | (f, v) :: fs => by
    rw [stringifyFields, oidFreeFields, oidFree_stringify v, oidFree_stringifyFields fs]
    rfl

end

mutual

theorem stringify_eq_self : (v : Value) → v.oidFree = true → v.stringify = v
  | .null, _ | .bool _, _ | .int _, _ | .double _, _ | .str _, _ | .date _, _ => rfl
  | .arr vs, h => congrArg Value.arr (stringifyList_eq_self vs h)
  | .obj fs, h => congrArg Value.obj (stringifyFields_eq_self fs h)

theorem stringifyList_eq_self : (vs : List Value) → oidFreeList vs = true → stringifyList vs = vs
  | [], _ => rfl
  | v :: vs, h => by
    rw [oidFreeList, Bool.and_eq_true] at h
    rw [stringifyList, stringify_eq_self v h.1, stringifyList_eq_self vs h.2]

/-- What holds no id is not changed. -/
theorem stringifyFields_eq_self :
    (fs : List (String × Value)) → oidFreeFields fs = true → stringifyFields fs = fs
  | [], _ => rfl
  | (f, v) :: fs, h => by
    rw [oidFreeFields, Bool.and_eq_true] at h
    rw [stringifyFields, stringify_eq_self v h.1, stringifyFields_eq_self fs h.2]

end

theorem stringifyList_eq_map (vs : List Value) : stringifyList vs = vs.map stringify := by
  induction vs with
  | nil => rfl
  | cons v vs ih => rw [stringifyList, ih, List.map_cons]

theorem stringifyFields_eq_map (fs : List (String × Value)) :
    stringifyFields fs = fs.map fun x => (x.1, x.2.stringify) := by
  induction fs with
  | nil => rfl
  | cons x fs ih => rw [stringifyFields, ih, List.map_cons]

/-- The value is an object id. -/
def isOid : Value → Bool
  | .oid _ => true
  | _ => false

/-- The id that the value is. -/
theorem eq_oid_of_isOid {v : Value} (h : v.isOid = true) : ∃ id, v = .oid id := by
  cases v with
  | oid id => exact ⟨id, rfl⟩
  | _ => cases h

end Value

end DocStore

namespace SocialNetwork.MongoApi

open DocStore

/-! ## `to_json`, field by field -/

/-- The fields in which `to_json` looks for an id besides `_id`. -/
def idKeys : List String := ["author_id", "from_user_id", "to_user_id", "user_id"]

/-- An id becomes its digits. -/
def convertId : Value → Value
  | .oid id => .str id.hex
  | v => v

/-- The comments of a list are converted one by one. -/
def convertComments : Value → Value
  | .arr comments => .arr (comments.map comment_)
  | v => v

/-- `idToStr` changes an id only. -/
theorem idToStr_eq (key : String) (doc : Doc) : idToStr key doc =
    match doc.get key with
    | none => doc
    | some (.oid id) => doc.set key (.str id.hex)
    | some _ => doc := by
  unfold idToStr
  cases doc.get key with
  | none => rfl
  | some v => cases v <;> rfl

/-- One field is converted, the others are kept. -/
theorem get_idToStr (key : String) (doc : Doc) (f : String) : (idToStr key doc).get f =
    if f = key then (doc.get key).map convertId else doc.get f := by
  by_cases hf : f = key
  · rw [if_pos hf, hf, idToStr_eq]
    split
    · next hnone =>
      rw [hnone]
      rfl
    · next id hid =>
      rw [hid, Doc.get_set_self]
      rfl
    · next v hother hv =>
      rw [hv]
      cases v with
      | oid id => exact absurd rfl (hother id)
      | _ => rfl
  · rw [if_neg hf, get_idToStr_of_ne hf]

/-- The fields keep their names and their order. -/
theorem names_idToStr (key : String) (doc : Doc) :
    (idToStr key doc).map Prod.fst = doc.map Prod.fst := by
  rw [idToStr_eq]
  split
  · rfl
  · next id hid =>
    rw [Doc.names_set, if_pos (List.mem_map_of_mem (Doc.mem_of_get hid))]
  · rfl

/-- The comment of which the id has been replaced. -/
theorem idToStr_eq_map {key : String} {doc : Doc} (hnodup : (doc.map Prod.fst).Nodup) :
    idToStr key doc = doc.map fun x => (x.1, if x.1 = key then convertId x.2 else x.2) := by
  have hnames : (doc.map fun x => (x.1, if x.1 = key then convertId x.2 else x.2)).map Prod.fst =
      doc.map Prod.fst := by
    rw [List.map_map]
    rfl
  apply Doc.ext_get
  · rw [names_idToStr, hnames]
  · rw [names_idToStr]
    exact hnodup
  · intro f
    rw [get_idToStr, Doc.get_map fun g v => if g = key then convertId v else v]
    by_cases hf : f = key
    · rw [if_pos hf, hf]
      simp only [if_pos]
    · rw [if_neg hf]
      simp only [if_neg hf, Option.map_id']

theorem names_idsPart (doc : Doc) : (idsPart doc).map Prod.fst = doc.map Prod.fst := by
  unfold idsPart
  rw [names_idToStr, names_idToStr, names_idToStr, names_idToStr]

/-- The four fields are converted, the others are kept. -/
theorem get_idsPart (doc : Doc) (f : String) : (idsPart doc).get f =
    if f ∈ idKeys then (doc.get f).map convertId else doc.get f := by
  unfold idsPart idKeys
  simp only [get_idToStr, List.mem_cons, List.not_mem_nil, or_false]
  by_cases huser : f = "user_id"
  · simp [huser]
  · by_cases hto : f = "to_user_id"
    · simp [hto]
    · by_cases hfrom : f = "from_user_id"
      · simp [hfrom]
      · by_cases hauthor : f = "author_id"
        · simp [hauthor]
        · simp [huser, hto, hfrom, hauthor]

/-- Digits are no id, so a second conversion changes nothing. -/
theorem convertId_idem (v : Value) : convertId (convertId v) = convertId v := by
  cases v <;> rfl

/-- Converting a comment twice is converting it once. -/
theorem comment_idem (v : Value) : comment_ (comment_ v) = comment_ v := by
  cases v with
  | obj comment =>
    -- the text of an id is no id
    have hread : (idToStr "user_id" comment).get "user_id" =
        (Doc.get comment "user_id").map convertId := by
      rw [get_idToStr, if_pos rfl]
    show Value.obj (idToStr "user_id" (idToStr "user_id" comment)) = _
    rw [idToStr_eq, hread]
    cases Doc.get comment "user_id" with
    | none => rfl
    | some v => cases v <;> rfl
  | _ => rfl

theorem convertComments_idem (v : Value) :
    convertComments (convertComments v) = convertComments v := by
  cases v with
  | arr comments =>
    show Value.arr ((comments.map comment_).map comment_) = _
    rw [List.map_map]
    refine congrArg Value.arr (List.map_congr_left fun x _ => ?_)
    exact comment_idem x
  | _ => rfl

/-- A converted comment can be converted again. -/
theorem takesComment_comment (v : Value) : takesComment (comment_ v) = takesComment v := by
  cases v <;> rfl

/-! ## Documents whose ids are found -/

/-- The only id of a comment is that of its author. -/
structure CommentOk (comment : Doc) : Prop where
  nodup : (comment.map Prod.fst).Nodup
  user : ∀ v, ("user_id", v) ∈ comment → v.isOid = true
  other : ∀ x ∈ comment, x.1 ≠ "user_id" → x.2.oidFree = true

/-- The value of a field, if ids stand only where `to_json` looks for them. -/
inductive Placed : String → Value → Prop
  | id {f : String} (hf : f = "_id" ∨ f ∈ idKeys) (id : ObjectId) : Placed f (.oid id)
  | likes (likes : List ObjectId) : Placed "likes" (.arr (likes.map .oid))
  | comments (comments : List Doc) (h : ∀ comment ∈ comments, CommentOk comment) :
    Placed "comments" (.arr (comments.map .obj))
  | other {f : String} {v : Value} (hf : f ∉ "_id" :: "likes" :: "comments" :: idKeys)
    (hv : v.oidFree = true) : Placed f v

/-- Every value of the document stands where `to_json` looks for it. -/
structure Convertible (doc : Doc) : Prop where
  nodup : (doc.map Prod.fst).Nodup
  id : ∃ id, doc.get "_id" = some (.oid id)
  placed : ∀ x ∈ doc, Placed x.1 x.2

theorem Convertible.get {doc : Doc} (h : Convertible doc) {f : String} {v : Value}
    (hv : doc.get f = some v) : Placed f v := h.placed (f, v) (Doc.mem_of_get hv)

/-- A field may be set to a value that fits it. -/
theorem Convertible.set {doc : Doc} (h : Convertible doc) {f : String} {v : Value} (hv : Placed f v)
    (hf : f ≠ "_id") : Convertible (doc.set f v) := by
  refine ⟨Doc.nodup_set h.nodup f v, ?_, fun x hx => ?_⟩
  · rw [Doc.get_set_of_ne doc v (Ne.symm hf)]
    exact h.id
  · rcases Doc.mem_set hx with hx | rfl
    · exact h.placed x hx
    · exact hv

/-- Likes are a list of ids. -/
theorem Placed.likes_inv {v : Value} (h : Placed "likes" v) :
    ∃ likes : List ObjectId, v = .arr (likes.map .oid) := by
  generalize hf : "likes" = f at h
  cases h with
  | id hid id =>
    rw [← hf] at hid
    exact absurd hid (by decide)
  | likes likes => exact ⟨likes, rfl⟩
  | comments comments _ => exact absurd hf (by decide)
  | other hother _ =>
    rw [← hf] at hother
    exact absurd hother (by decide)

/-- Comments are a list of objects. -/
theorem Placed.comments_inv {v : Value} (h : Placed "comments" v) :
    ∃ comments : List Doc, v = .arr (comments.map .obj) ∧
      ∀ comment ∈ comments, CommentOk comment := by
  generalize hf : "comments" = f at h
  cases h with
  | id hid id =>
    rw [← hf] at hid
    exact absurd hid (by decide)
  | likes likes => exact absurd hf (by decide)
  | comments comments hall => exact ⟨comments, rfl, hall⟩
  | other hother _ =>
    rw [← hf] at hother
    exact absurd hother (by decide)

/-- The fields for ids hold ids. -/
theorem Placed.id_inv {f : String} {v : Value} (h : Placed f v) (hf : f = "_id" ∨ f ∈ idKeys) :
    ∃ id, v = .oid id := by
  cases h with
  | id _ id => exact ⟨id, rfl⟩
  | likes likes => exact absurd hf (by decide)
  | comments comments _ => exact absurd hf (by decide)
  | other hother _ =>
    rcases hf with rfl | hf
    · exact absurd List.mem_cons_self hother
    · have hmem : f ∈ "_id" :: "likes" :: "comments" :: idKeys :=
        List.mem_cons_of_mem _ (List.mem_cons_of_mem _ (List.mem_cons_of_mem _ hf))
      exact absurd hmem hother

/-- `to_json` does not raise on it. -/
theorem Convertible.encodable {doc : Doc} (h : Convertible doc) : Encodable doc := by
  refine ⟨?_, fun v hv => ?_, fun v hv => ?_⟩
  · obtain ⟨id, hid⟩ := h.id
    exact ⟨_, hid⟩
  · obtain ⟨likes, rfl⟩ := (h.get hv).likes_inv
    exact ⟨_, rfl⟩
  · obtain ⟨comments, rfl, -⟩ := (h.get hv).comments_inv
    refine ⟨_, rfl, fun x hx => ?_⟩
    obtain ⟨comment, -, rfl⟩ := List.mem_map.mp hx
    rfl

/-- On a well-formed comment the conversion is `stringify`. -/
theorem comment_eq {comment : Doc} (h : CommentOk comment) :
    comment_ (.obj comment) = (Value.obj comment).stringify := by
  show Value.obj (idToStr "user_id" comment) = .obj (Value.stringifyFields comment)
  rw [idToStr_eq_map h.nodup, Value.stringifyFields_eq_map]
  refine congrArg Value.obj (List.map_congr_left fun x hx => ?_)
  by_cases hx₁ : x.1 = "user_id"
  · obtain ⟨id, hid⟩ := Value.eq_oid_of_isOid (h.user x.2 (hx₁ ▸ hx))
    rw [if_pos hx₁, hid]
    rfl
  · rw [if_neg hx₁, Value.stringify_eq_self _ (h.other x hx hx₁)]

/-! ## Completeness -/

variable [Bson]

/-- The likes, as texts; what cannot be walked over is kept. -/
def convertLikes (v : Value) : Value :=
  match iterate v with
  | .ok likes => .arr (likes.map fun x => .str (str_ x))
  | .error _ => v

/-- What `to_json` makes of the value of a field. -/
def convertField (f : String) (v : Value) : Value :=
  if f = "_id" then .str (str_ v)
  else if f ∈ idKeys then convertId v
  else if f = "likes" then convertLikes v
  else if f = "comments" then convertComments v
  else v

theorem convertField_likes (v : Value) : convertField "likes" v = convertLikes v := by
  rw [convertField, if_neg (by decide), if_neg (by decide), if_pos rfl]

theorem convertField_comments (v : Value) : convertField "comments" v = convertComments v := by
  rw [convertField, if_neg (by decide), if_neg (by decide), if_neg (by decide), if_pos rfl]

/-- The likes that have been walked over. -/
theorem convertLikes_eq {v : Value} {xs : List Value} (h : iterate v = .ok xs) :
    convertLikes v = .arr (xs.map fun x => .str (str_ x)) := by
  unfold convertLikes
  rw [h]

/-- A document that is encoded keeps the names and the order of its fields. -/
theorem names_to_json {doc out : Doc} (h : to_json doc = .ok out) :
    out.map Prod.fst = doc.map Prod.fst := by
  obtain ⟨doc₁, doc₂, hid, hlikes, hcomments⟩ := to_json_parts h
  have hfirst : doc₁.map Prod.fst = doc.map Prod.fst := by
    unfold idPart at hid
    split at hid
    · next v hv =>
      rw [← Except.ok.inj hid, Doc.names_set, if_pos (List.mem_map_of_mem (Doc.mem_of_get hv))]
    · cases hid
  -- an absent field is not added, a present one is set in its place
  have hsecond : doc₂.map Prod.fst = doc.map Prod.fst := by
    rw [← hfirst, ← names_idsPart doc₁]
    unfold likesPart at hlikes
    split at hlikes
    · rw [← Except.ok.inj hlikes]
    · next v hsome =>
      cases hitems : iterate v with
      | error e =>
        rw [hitems] at hlikes
        cases hlikes
      | ok likes =>
        rw [hitems] at hlikes
        rw [← Except.ok.inj hlikes, Doc.names_set,
          if_pos (List.mem_map_of_mem (Doc.mem_of_get hsome))]
  rw [← hsecond]
  cases hv : doc₂.get "comments" with
  | none =>
    unfold commentsPart at hcomments
    rw [hv] at hcomments
    rw [← Except.ok.inj hcomments]
  | some v =>
    obtain ⟨xs, -, -, rfl⟩ := commentsPart_eq_ok hcomments hv
    split_ifs
    · rw [Doc.names_set, if_pos (List.mem_map_of_mem (Doc.mem_of_get hv))]
    · rfl

/-- Each field is converted by itself. -/
theorem get_converted {doc out : Doc} (h : to_json doc = .ok out) (f : String) :
    out.get f = (doc.get f).map (convertField f) := by
  obtain ⟨doc₁, doc₂, hid, hlikes, hcomments⟩ := to_json_parts h
  by_cases hf₀ : f = "_id"
  · subst hf₀
    rw [get_commentsPart hcomments (by decide), get_likesPart hlikes (by decide),
      get_idsPart_of_ne (by decide)]
    unfold idPart at hid
    split at hid
    · next v hv =>
      rw [← Except.ok.inj hid, Doc.get_set_self, hv]
      rfl
    · cases hid
  -- no part touches the field of another
  by_cases hf₁ : f ∈ idKeys
  · have hne : f ≠ "likes" ∧ f ≠ "comments" := by
      constructor <;> (rintro rfl; exact absurd hf₁ (by decide))
    rw [get_commentsPart hcomments hne.2, get_likesPart hlikes hne.1, get_idsPart, if_pos hf₁,
      get_idPart hid hf₀]
    have hconvert : convertField f = convertId := by
      funext v
      rw [convertField, if_neg hf₀, if_pos hf₁]
    rw [hconvert]
  by_cases hf₂ : f = "likes"
  · subst hf₂
    cases hv : doc.get "likes" with
    | none =>
      have hsame : (idsPart doc₁).get "likes" = none := by
        rw [get_idsPart_of_ne (by decide), get_idPart hid (by decide), hv]
      unfold likesPart at hlikes
      rw [hsame] at hlikes
      rw [get_commentsPart hcomments (by decide), ← Except.ok.inj hlikes, hsame]
      rfl
    | some v =>
      obtain ⟨xs, hxs, hout⟩ := get_likes_to_json h hv
      rw [hout, Option.map_some, convertField_likes, convertLikes_eq hxs]
  by_cases hf₃ : f = "comments"
  · subst hf₃
    cases hv : doc.get "comments" with
    | none =>
      have hsame : doc₂.get "comments" = none := by
        rw [get_likesPart hlikes (by decide), get_idsPart_of_ne (by decide),
          get_idPart hid (by decide), hv]
      unfold commentsPart at hcomments
      rw [hsame] at hcomments
      rw [← Except.ok.inj hcomments, hsame]
      rfl
    | some v =>
      obtain ⟨xs, hxs, -, hout⟩ := get_comments_to_json h hv
      rw [hout, Option.map_some, convertField_comments]
      cases v with
      | arr vs =>
        rw [if_pos (congrArg Value.arr (Except.ok.inj hxs)), ← Except.ok.inj hxs]
        rfl
      | _ => rfl
  · have hother : f ∉ ["_id", "author_id", "from_user_id", "to_user_id", "user_id", "likes",
        "comments"] := by
      simp only [idKeys, List.mem_cons, List.not_mem_nil, or_false, not_or] at hf₁
      simp only [List.mem_cons, List.not_mem_nil, or_false, not_or]
      exact ⟨hf₀, hf₁.1, hf₁.2.1, hf₁.2.2.1, hf₁.2.2.2, hf₂, hf₃⟩
    rw [get_to_json h hother]
    have hconvert : convertField f = id := by
      funext v
      rw [convertField, if_neg hf₀, if_neg hf₁, if_neg hf₂, if_neg hf₃]
      rfl
    rw [hconvert, Option.map_id_fun, id]

/-- A document that names each field once is converted field by field, in its order. -/
theorem to_json_eq_map {doc : Doc} (hnodup : (doc.map Prod.fst).Nodup) (h : Encodable doc) :
    to_json doc = .ok (doc.map fun x => (x.1, convertField x.1 x.2)) := by
  obtain ⟨out, hout⟩ := h.to_json_ok
  have hnames : (doc.map fun x => (x.1, convertField x.1 x.2)).map Prod.fst = doc.map Prod.fst := by
    rw [List.map_map]
    rfl
  have heq : out = doc.map fun x => (x.1, convertField x.1 x.2) := by
    apply Doc.ext_get
    · rw [names_to_json hout, hnames]
    · rw [names_to_json hout]
      exact hnodup
    · intro f
      rw [get_converted hout, Doc.get_map convertField]
  rw [hout, heq]

theorem convertLikes_idem (v : Value) : convertLikes (convertLikes v) = convertLikes v := by
  cases h : iterate v with
  | error e =>
    have hsame : convertLikes v = v := by
      unfold convertLikes
      rw [h]
    rw [hsame, hsame]
  | ok xs =>
    rw [convertLikes_eq h, convertLikes_eq rfl, List.map_map]
    rfl

/-- Converting a field twice is converting it once. -/
theorem convertField_idem (f : String) (v : Value) :
    convertField f (convertField f v) = convertField f v := by
  by_cases h₀ : f = "_id"
  · simp only [convertField, if_pos h₀, str_]
  by_cases h₁ : f ∈ idKeys
  · simp only [convertField, if_neg h₀, if_pos h₁, convertId_idem]
  by_cases h₂ : f = "likes"
  · simp only [convertField, if_neg h₀, if_neg h₁, if_pos h₂, convertLikes_idem]
  by_cases h₃ : f = "comments"
  · simp only [convertField, if_neg h₀, if_neg h₁, if_neg h₂, if_pos h₃, convertComments_idem]
  · simp only [convertField, if_neg h₀, if_neg h₁, if_neg h₂, if_neg h₃]

/-- What has been converted is encoded again. -/
theorem Encodable.converted {doc out : Doc} (h : Encodable doc) (hout : to_json doc = .ok out) :
    Encodable out := by
  refine ⟨?_, fun v hv => ?_, fun v hv => ?_⟩
  · obtain ⟨v, hv⟩ := h.id
    exact ⟨_, by rw [get_converted hout, hv]; rfl⟩
  · rw [get_converted hout] at hv
    obtain ⟨w, hw, rfl⟩ := Option.map_eq_some_iff.mp hv
    obtain ⟨likes, hlikes⟩ := h.likes w hw
    rw [convertField_likes, convertLikes_eq hlikes]
    exact ⟨_, rfl⟩
  · rw [get_converted hout] at hv
    obtain ⟨w, hw, rfl⟩ := Option.map_eq_some_iff.mp hv
    obtain ⟨comments, hcomments, htakes⟩ := h.comments w hw
    rw [convertField_comments]
    cases w with
    | arr vs =>
      cases hcomments
      refine ⟨comments.map comment_, rfl, fun x hx => ?_⟩
      obtain ⟨y, hy, rfl⟩ := List.mem_map.mp hx
      rw [takesComment_comment]
      exact htakes y hy
    | _ => exact ⟨comments, hcomments, htakes⟩

/-- **Twice.** Converting what has been converted changes nothing. -/
theorem to_json_to_json {doc out : Doc} (hnodup : (doc.map Prod.fst).Nodup)
    (h : to_json doc = .ok out) : to_json out = .ok out := by
  have hencodable : Encodable doc := encodable_iff.mpr ⟨out, h⟩
  have hnodup' : (out.map Prod.fst).Nodup := by
    rw [names_to_json h]
    exact hnodup
  have hout : out = doc.map fun x => (x.1, convertField x.1 x.2) :=
    Except.ok.inj (h.symm.trans (to_json_eq_map hnodup hencodable))
  rw [to_json_eq_map hnodup' (hencodable.converted h)]
  congr 1
  conv_rhs => rw [hout]
  rw [hout, List.map_map]
  apply List.map_congr_left
  intro x _
  show (x.1, convertField x.1 (convertField x.1 x.2)) = _
  rw [convertField_idem]

/-- Where ids stand only where it looks for them, `to_json` finds them all. -/
theorem Placed.convert {f : String} {v : Value} (h : Placed f v) : convertField f v = v.stringify := by
  cases h with
  | id hf id =>
    unfold convertField
    split_ifs
    · rfl
    · rfl
    all_goals tauto
  | likes likes =>
    rw [convertField_likes, convertLikes_eq rfl, Value.stringify, Value.stringifyList_eq_map,
      List.map_map, List.map_map]
    rfl
  | comments comments hall =>
    rw [convertField_comments, Value.stringify, Value.stringifyList_eq_map, convertComments,
      List.map_map, List.map_map]
    refine congrArg Value.arr (List.map_congr_left fun comment hcomment => ?_)
    exact comment_eq (hall comment hcomment)
  | other hf hv =>
    simp only [List.mem_cons, not_or] at hf
    rw [convertField, if_neg hf.1, if_neg hf.2.2.2, if_neg hf.2.1, if_neg hf.2.2.1,
      Value.stringify_eq_self v hv]

/-- **Completeness.** Every id of such a document is replaced, and nothing else is changed. -/
theorem Convertible.to_json_eq {doc : Doc} (h : Convertible doc) :
    to_json doc = .ok (Value.stringifyFields doc) := by
  rw [to_json_eq_map h.nodup h.encodable, Value.stringifyFields_eq_map]
  congr 1
  apply List.map_congr_left
  intro x hx
  rw [(h.placed x hx).convert]

/-! ## Back -/

/-- A text is replaced by `oid(text)`. -/
def restoreId : Value → Except PyError Value
  | .str s => (oid s).map .oid
  | v => .ok v

/-- The likes, read back as ids. -/
def restoreLikes : Value → Except PyError Value
  | .arr likes => (likes.mapM restoreId).map .arr
  | v => .ok v

/-- A comment with the id of its author read back. -/
def restoreComment : Value → Except PyError Value
  | .obj comment =>
    (comment.mapM fun x =>
      (if x.1 = "user_id" then restoreId x.2 else .ok x.2).map fun v => (x.1, v)).map .obj
  | v => .ok v

/-- The comments of a list are read back one by one. -/
def restoreComments : Value → Except PyError Value
  | .arr comments => (comments.mapM restoreComment).map .arr
  | v => .ok v

/-- The value of a field before its conversion. -/
def restoreField (f : String) (v : Value) : Except PyError Value :=
  if f = "_id" ∨ f ∈ idKeys then restoreId v
  else if f = "likes" then restoreLikes v
  else if f = "comments" then restoreComments v
  else .ok v

/-- The texts in the fields that `to_json` converts are replaced by the ids that `oid` reads. -/
def of_json (json : Doc) : Except PyError Doc :=
  json.mapM fun x => (restoreField x.1 x.2).map fun v => (x.1, v)

/-- The digits of an id are read back. -/
@[simp] theorem oid_hex (id : ObjectId) : oid id.hex = .ok id := by
  unfold oid
  rw [Bson.parse?_hex]

@[simp] theorem restoreId_hex (id : ObjectId) : restoreId (.str id.hex) = .ok (.oid id) := by
  rw [restoreId, oid_hex]
  rfl

/-- A converted comment is read back as it was. -/
theorem restoreComment_stringify {comment : Doc} (h : CommentOk comment) :
    restoreComment (Value.obj comment).stringify = .ok (.obj comment) := by
  show restoreComment (.obj (Value.stringifyFields comment)) = _
  rw [Value.stringifyFields_eq_map, restoreComment, Fallible.mapM_restore]
  · rfl
  · intro x hx
    by_cases hx₁ : x.1 = "user_id"
    · obtain ⟨id, hid⟩ := Value.eq_oid_of_isOid (h.user x.2 (hx₁ ▸ hx))
      simp only [if_pos hx₁, hid, Value.stringify, restoreId_hex]
      rw [← hid]
      rfl
    · simp only [if_neg hx₁, Value.stringify_eq_self _ (h.other x hx hx₁)]
      rfl

/-- A converted value is read back as it was. -/
theorem Placed.restore {f : String} {v : Value} (h : Placed f v) :
    restoreField f v.stringify = .ok v := by
  cases h with
  | id hf id => rw [restoreField, if_pos hf, Value.stringify, restoreId_hex]
  | likes likes =>
    show restoreLikes (.arr (Value.stringifyList _)) = _
    rw [Value.stringifyList_eq_map, restoreLikes, Fallible.mapM_restore]
    · rfl
    · intro v hv
      obtain ⟨id, -, rfl⟩ := List.mem_map.mp hv
      exact restoreId_hex id
  | comments comments hall =>
    show restoreComments (.arr (Value.stringifyList _)) = _
    rw [Value.stringifyList_eq_map, restoreComments, Fallible.mapM_restore]
    · rfl
    · intro v hv
      obtain ⟨comment, hcomment, rfl⟩ := List.mem_map.mp hv
      exact restoreComment_stringify (hall comment hcomment)
  | other hf hv =>
    have hnot : ¬ (f = "_id" ∨ f ∈ idKeys) := by
      simp only [List.mem_cons, not_or] at hf
      tauto
    simp only [List.mem_cons, not_or] at hf
    rw [restoreField, if_neg hnot, if_neg hf.2.1, if_neg hf.2.2.1, Value.stringify_eq_self v hv]

/-- **Losslessness.** The document is read back from its JSON. -/
theorem Convertible.of_json_eq {doc : Doc} (h : Convertible doc) :
    of_json (Value.stringifyFields doc) = .ok doc := by
  rw [Value.stringifyFields_eq_map, of_json, Fallible.mapM_restore]
  intro x hx
  show (restoreField x.1 x.2.stringify).map _ = _
  rw [(h.placed x hx).restore]
  rfl

end SocialNetwork.MongoApi

import Mathlib.Data.List.Infix
import SocialNetwork.Lib.Document
import SocialNetwork.Lib.Fallible

/-!
# Ids, dates and JSON (`mongo-api/api.py`)

`oid`, `to_json` and the encoding of cached values. A cached text is the JSON value it encodes:
`json_dumps` gives that value, with `str` of what JSON has no notation for. `to_json` goes through
whatever Python can iterate, a text and an object included.

What is used of `bson.ObjectId` and of Python's `str` is a parameter (`Bson`).
-/

namespace SocialNetwork.MongoApi

open DocStore

/-- The exceptions of the API. -/
inductive PyError
  | httpException (status_code : Nat) (detail : String) (headers : List (String × String))
  | writeError
  | overflowError
  | operationFailure
  | connectionError
  | keyError (key : String)
  | typeError
  /-- A stored date has no `datetime`. -/
  | invalidBSON
  | valueError
deriving DecidableEq, Repr

/-- `str(e)`. -/
def PyError.str : PyError → String
  | httpException status_code detail _ => s!"{status_code}: {detail}"
  | writeError => "Document failed validation"
  | overflowError => "MongoDB can only handle up to 8-byte ints"
  | operationFailure => "operation failed"
  | connectionError => "connection closed"
  | keyError key => s!"'{key}'"
  | typeError => "'NoneType' object is not subscriptable"
  | invalidBSON => "year is out of range"
  | valueError => "year is out of range"

/-! ## Dates -/

/-- Digits with leading zeros. -/
def pad (width n : Nat) : String :=
  let digits := Nat.toDigits 10 n
  String.ofList (List.replicate (width - digits.length) '0' ++ digits)

/-- Year, month and day of the day that is `days` after 1970-01-01. -/
def civil (days : Int) : Nat × Nat × Nat :=
  let z := days + 719468
  let era := z / 146097
  let doe := (z - era * 146097).toNat
  let yoe := (doe - doe / 1460 + doe / 36524 - doe / 146096) / 365
  let doy := doe - (365 * yoe + yoe / 4 - yoe / 100)
  let mp := (5 * doy + 2) / 153
  let month := if mp < 10 then mp + 3 else mp - 9
  let year := (yoe + era * 400).toNat + if month ≤ 2 then 1 else 0
  (year, month, doy - (153 * mp + 2) / 5 + 1)

/-- A `datetime` of `ms` milliseconds after 1970, with a separator between date and time. -/
def isoformat (sep : String) (ms : Int) : String :=
  let (year, month, day) := civil (ms / 86400000)
  let rest := (ms % 86400000).toNat
  let micros := rest % 1000 * 1000
  pad 4 year ++ "-" ++ pad 2 month ++ "-" ++ pad 2 day ++ sep ++
    pad 2 (rest / 3600000) ++ ":" ++ pad 2 (rest / 60000 % 60) ++ ":" ++
    pad 2 (rest / 1000 % 60) ++ if micros = 0 then "" else "." ++ pad 6 micros

example : isoformat " " 1779184800123 = "2026-05-19 10:00:00.123000" := by decide

/-! ## Ids and comments of a document -/

/-- `for x in value`: the items of a list, the characters of a text and the keys of an object. -/
def iterate : Value → Except PyError (List Value)
  | .arr xs => .ok xs
  | .str s => .ok (s.toList.map fun c => .str (String.singleton c))
  | .obj fs => .ok (fs.map fun x => .str x.1)
  | _ => .error .typeError

/-- An id becomes its digits. -/
def idToStr (key : String) (doc : Doc) : Doc :=
  match doc.get key with
  | some (.oid id) => doc.set key (.str id.hex)
  | _ => doc

/-- The four fields that hold an id. -/
def idsPart (doc : Doc) : Doc :=
  idToStr "user_id" (idToStr "to_user_id" (idToStr "from_user_id" (idToStr "author_id" doc)))

/-- `part in s`, of two texts. -/
def hasPart (part s : String) : Bool := decide (part.toList <:+: s.toList)

/-- `"user_id" in comment`: a part of a text, an item of a list or a key of an object. -/
def hasUserId : Value → Except PyError Bool
  | .str s => .ok (hasPart "user_id" s)
  | .arr xs => .ok (decide (.str "user_id" ∈ xs))
  | .obj fields => .ok (Doc.get fields "user_id").isSome
  | _ => .error .typeError

/-- One comment; what takes no assignment by key raises. -/
def commentPart (comment : Value) : Except PyError Value := do
  if ← hasUserId comment then
    match comment with
    | .obj fields => pure (.obj (idToStr "user_id" fields))
    -- neither a text nor a list has a `comment["user_id"]`
    | _ => throw .typeError
  else pure comment

/-- The comments, when there are any. -/
def commentsPart (doc : Doc) : Except PyError Doc :=
  match doc.get "comments" with
  | none => .ok doc
  | some v => do
    let comments ← (← iterate v).mapM commentPart
    match v with
    | .arr _ => pure (doc.set "comments" (.arr comments))
    -- the characters of a text and the keys of an object are not changed
    | _ => pure doc

/-- `to_json` takes the value as a comment: an object, or a text or a list without `user_id`. -/
def takesComment : Value → Bool
  | .obj _ => true
  | .str s => !hasPart "user_id" s
  | .arr xs => !decide (.str "user_id" ∈ xs)
  | _ => false

/-- What a comment becomes. -/
def comment_ : Value → Value
  | .obj fields => .obj (idToStr "user_id" fields)
  | v => v

theorem idToStr_of_eq_none {key : String} {doc : Doc} (h : doc.get key = none) :
    idToStr key doc = doc := by
  unfold idToStr
  rw [h]

theorem commentPart_eq (v : Value) :
    commentPart v = if takesComment v then .ok (comment_ v) else .error .typeError := by
  cases v with
  | obj fields =>
    show (if (Doc.get fields "user_id").isSome = true then
      (Except.ok (.obj (idToStr "user_id" fields)) : Except PyError Value)
        else .ok (.obj fields)) = .ok (.obj (idToStr "user_id" fields))
    cases hid : Doc.get fields "user_id" with
    | some w => rfl
    | none => rw [idToStr_of_eq_none hid, ite_self]
  | str s =>
    unfold takesComment
    show (if hasPart "user_id" s = true then (Except.error .typeError : Except PyError Value)
      else .ok (.str s)) = if (!hasPart "user_id" s) = true then .ok (.str s) else .error .typeError
    cases hasPart "user_id" s <;> rfl
  | arr xs =>
    unfold takesComment
    show (if decide (.str "user_id" ∈ xs) = true then (Except.error .typeError : Except PyError Value)
      else .ok (.arr xs)) =
        if (!decide (.str "user_id" ∈ xs)) = true then .ok (.arr xs) else .error .typeError
    cases decide (.str "user_id" ∈ xs) <;> rfl
  | _ => rfl

/-- A field of which no id is made keeps its value. -/
theorem get_idToStr_of_ne {key f : String} (h : f ≠ key) (doc : Doc) :
    (idToStr key doc).get f = doc.get f := by
  unfold idToStr
  split
  · exact Doc.get_set_of_ne doc _ h
  · rfl

theorem get_idsPart_of_ne {f : String}
    (h : f ∉ ["author_id", "from_user_id", "to_user_id", "user_id"]) (doc : Doc) :
    (idsPart doc).get f = doc.get f := by
  simp only [List.mem_cons, List.not_mem_nil, or_false, not_or] at h
  unfold idsPart
  rw [get_idToStr_of_ne h.2.2.2, get_idToStr_of_ne h.2.2.1, get_idToStr_of_ne h.2.1,
    get_idToStr_of_ne h.1]

/-- The comments of a document that is encoded, and what is left of it. -/
theorem commentsPart_eq_ok {doc out : Doc} (h : commentsPart doc = .ok out) {v : Value}
    (hv : doc.get "comments" = some v) :
    ∃ xs, iterate v = .ok xs ∧ (∀ x ∈ xs, takesComment x = true) ∧
      out = if v = .arr xs then doc.set "comments" (.arr (xs.map comment_)) else doc := by
  unfold commentsPart at h
  rw [hv] at h
  obtain ⟨xs, hxs, h⟩ := Fallible.exists_of_bind h
  obtain ⟨ys, hys, h⟩ := Fallible.exists_of_bind h
  have htakes : ∀ x ∈ xs, takesComment x = true := by
    intro x hx
    obtain ⟨y, hy⟩ := Fallible.mapM_ok_iff.mp ⟨ys, hys⟩ x hx
    rw [commentPart_eq] at hy
    by_contra hrefused
    rw [if_neg hrefused] at hy
    cases hy
  rw [Fallible.mapM_eq_ok (g := comment_) fun x hx => by rw [commentPart_eq, if_pos (htakes x hx)]]
    at hys
  refine ⟨xs, hxs, htakes, ?_⟩
  cases v with
  | arr vs =>
    rw [if_pos (congrArg Value.arr (Except.ok.inj hxs)), Except.ok.inj hys]
    exact (Except.ok.inj h).symm
  | _ => exact (Except.ok.inj h).symm

theorem get_commentsPart {doc out : Doc} (h : commentsPart doc = .ok out) {f : String}
    (hf : f ≠ "comments") : out.get f = doc.get f := by
  cases hv : doc.get "comments" with
  | none =>
    unfold commentsPart at h
    rw [hv] at h
    rw [← Except.ok.inj h]
  | some v =>
    obtain ⟨xs, -, -, rfl⟩ := commentsPart_eq_ok h hv
    split_ifs
    · exact Doc.get_set_of_ne doc _ hf
    · rfl

/-- Walking over a value raises a `TypeError` at most. -/
theorem iterate_error {v : Value} {e : PyError} (h : iterate v = .error e) : e = .typeError := by
  unfold iterate at h
  split at h
  · cases h
  · cases h
  · cases h
  · exact (Except.error.inj h).symm

theorem commentsPart_error {doc : Doc} {e : PyError} (h : commentsPart doc = .error e) :
    e = .typeError := by
  unfold commentsPart at h
  split at h
  · cases h
  · next v _ =>
    cases hitems : iterate v with
    | error e' =>
      rw [hitems] at h
      rw [← Except.error.inj h, iterate_error hitems]
    | ok xs =>
      rw [hitems] at h
      cases hmap : xs.mapM commentPart with
      | error e' =>
        obtain ⟨x, -, hx⟩ := Fallible.exists_of_mapM_error hmap
        have he : e' = e := by
          replace h : (xs.mapM commentPart >>= fun _ => _) = Except.error e := h
          rw [hmap] at h
          exact Except.error.inj h
        rw [commentPart_eq] at hx
        split_ifs at hx
        rw [← he, Except.error.inj hx]
      | ok ys =>
        replace h : (xs.mapM commentPart >>= fun _ => _) = Except.error e := h
        rw [hmap] at h
        cases v <;> cases h

/-- A document with an `_id`, whose likes can be gone through, and whose comments can, each of them
being an object, or a text or a list without `user_id`. -/
structure Encodable (doc : Doc) : Prop where
  id : ∃ v, doc.get "_id" = some v
  likes : ∀ v, doc.get "likes" = some v → ∃ xs, iterate v = .ok xs
  comments : ∀ v, doc.get "comments" = some v →
    ∃ xs, iterate v = .ok xs ∧ ∀ x ∈ xs, takesComment x = true

/-- It depends on three fields. -/
theorem Encodable.congr {doc doc' : Doc}
    (h : ∀ f ∈ ["_id", "likes", "comments"], doc.get f = doc'.get f) : Encodable doc ↔ Encodable doc' := by
  have himp : ∀ doc doc' : Doc, (∀ f ∈ ["_id", "likes", "comments"], doc.get f = doc'.get f) →
      Encodable doc → Encodable doc' := by
    intro doc doc' h hdoc
    simp only [List.forall_mem_cons] at h
    obtain ⟨hid, hlikes, hcomments, -⟩ := h
    exact ⟨hid ▸ hdoc.id, hlikes ▸ hdoc.likes, hcomments ▸ hdoc.comments⟩
  exact ⟨himp doc doc' h, himp doc' doc fun f hf => (h f hf).symm⟩

/-! ## `oid` and `to_json` -/

/-- The part of `bson` and of Python that is not modelled. -/
class Bson where
  /-- `ObjectId(value)`, unless `ObjectId.is_valid(value)` is false. -/
  parse? : String → Option ObjectId
  /-- `str(x)` of a number with a fraction, of a list and of an object. -/
  str_ : Value → String
  parse?_hex (id : ObjectId) : parse? id.hex = some id
  /-- The digits may be letters of either case. -/
  parse?_congr {s s' : String} : s.toList.map Char.toLower = s'.toList.map Char.toLower →
    parse? s = parse? s'
  /-- A valid text has 24 characters, digits or blanks. -/
  parse?_chars {s : String} {id : ObjectId} : parse? s = some id →
    s.length = 24 ∧ ∀ c ∈ s.toList, (ObjectId.digit? c).isSome ∨ c.toNat ∈ [9, 10, 11, 12, 13, 32]

namespace Hex

/-- `bson` on texts without blanks. -/
scoped instance bson : Bson where
  parse? := ObjectId.parse?
  str_ _ := ""
  parse?_hex := ObjectId.parse?_hex
  parse?_congr := ObjectId.parse?_congr
  parse?_chars h := ⟨ObjectId.length_of_parse? h, fun _ hc => .inl (ObjectId.digit?_of_parse? h hc)⟩

end Hex

section

variable [Bson]

/-- `str(x)`. -/
def str_ : Value → String
  | .null => "None"
  | .bool b => if b then "True" else "False"
  | .int n => toString n
  | .str s => s
  | .oid id => id.hex
  | .date ms => isoformat " " ms
  | v => Bson.str_ v

def oid (value : String) : Except PyError ObjectId :=
  match Bson.parse? value with
  | some id => .ok id
  | none => .error (.httpException 400 "Invalid ObjectId" [])

/-- `doc["_id"] = str(doc["_id"])`. -/
def idPart (doc : Doc) : Except PyError Doc :=
  match doc.get "_id" with
  | some v => .ok (doc.set "_id" (.str (str_ v)))
  | none => .error (.keyError "_id")

/-- `doc["likes"] = [str(x) for x in doc["likes"]]`. -/
def likesPart (doc : Doc) : Except PyError Doc :=
  match doc.get "likes" with
  | none => .ok doc
  | some v => (iterate v).map fun likes => doc.set "likes" (.arr (likes.map fun x => .str (str_ x)))

def to_json (doc : Doc) : Except PyError Doc := do
  let doc ← idPart doc
  let doc ← likesPart (idsPart doc)
  commentsPart doc

/-- Each part sets its own fields only. -/
theorem get_idPart {doc out : Doc} (h : idPart doc = .ok out) {f : String} (hf : f ≠ "_id") :
    out.get f = doc.get f := by
  unfold idPart at h
  split at h
  · rw [← Except.ok.inj h, Doc.get_set_of_ne doc _ hf]
  · cases h

theorem get_likesPart {doc out : Doc} (h : likesPart doc = .ok out) {f : String} (hf : f ≠ "likes") :
    out.get f = doc.get f := by
  unfold likesPart at h
  split at h
  · rw [← Except.ok.inj h]
  · next v _ =>
    cases hitems : iterate v with
    | error e =>
      rw [hitems] at h
      cases h
    | ok likes =>
      rw [hitems] at h
      rw [← Except.ok.inj h, Doc.get_set_of_ne doc _ hf]

/-- The parts of a document that is encoded. -/
theorem to_json_parts {doc out : Doc} (h : to_json doc = .ok out) :
    ∃ doc₁ doc₂, idPart doc = .ok doc₁ ∧ likesPart (idsPart doc₁) = .ok doc₂ ∧
      commentsPart doc₂ = .ok out := by
  obtain ⟨doc₁, hid, h⟩ := Fallible.exists_of_bind h
  obtain ⟨doc₂, hlikes, hcomments⟩ := Fallible.exists_of_bind h
  exact ⟨doc₁, doc₂, hid, hlikes, hcomments⟩

/-- A field that holds no ids is kept. -/
theorem get_to_json {doc out : Doc} (h : to_json doc = .ok out) {f : String}
    (hf : f ∉ ["_id", "author_id", "from_user_id", "to_user_id", "user_id", "likes", "comments"]) :
    out.get f = doc.get f := by
  obtain ⟨doc₁, doc₂, hid, hlikes, hcomments⟩ := to_json_parts h
  simp only [List.mem_cons, List.not_mem_nil, or_false, not_or] at hf
  have hids : f ∉ ["author_id", "from_user_id", "to_user_id", "user_id"] := by
    simp only [List.mem_cons, List.not_mem_nil, or_false, not_or]
    exact ⟨hf.2.1, hf.2.2.1, hf.2.2.2.1, hf.2.2.2.2.1⟩
  rw [get_commentsPart hcomments hf.2.2.2.2.2.2, get_likesPart hlikes hf.2.2.2.2.2.1,
    get_idsPart_of_ne hids, get_idPart hid hf.1]

/-- The likes are encoded one by one. -/
theorem get_likes_to_json {doc out : Doc} (h : to_json doc = .ok out) {v : Value}
    (hv : doc.get "likes" = some v) :
    ∃ xs, iterate v = .ok xs ∧ out.get "likes" = some (.arr (xs.map fun x => .str (str_ x))) := by
  obtain ⟨doc₁, doc₂, hid, hlikes, hcomments⟩ := to_json_parts h
  have hsame : (idsPart doc₁).get "likes" = some v := by
    rw [get_idsPart_of_ne (by decide), get_idPart hid (by decide), hv]
  unfold likesPart at hlikes
  simp only [hsame] at hlikes
  cases hitems : iterate v with
  | error e =>
    rw [hitems] at hlikes
    cases hlikes
  | ok xs =>
    rw [hitems] at hlikes
    refine ⟨xs, rfl, ?_⟩
    rw [get_commentsPart hcomments (by decide), ← Except.ok.inj hlikes, Doc.get_set_self]

/-- The comments of a list are encoded one by one. -/
theorem get_comments_to_json {doc out : Doc} (h : to_json doc = .ok out) {v : Value}
    (hv : doc.get "comments" = some v) :
    ∃ xs, iterate v = .ok xs ∧ (∀ x ∈ xs, takesComment x = true) ∧
      out.get "comments" = some (if v = .arr xs then .arr (xs.map comment_) else v) := by
  obtain ⟨doc₁, doc₂, hid, hlikes, hcomments⟩ := to_json_parts h
  have hsame : doc₂.get "comments" = some v := by
    rw [get_likesPart hlikes (by decide), get_idsPart_of_ne (by decide), get_idPart hid (by decide),
      hv]
  obtain ⟨xs, hxs, htakes, rfl⟩ := commentsPart_eq_ok hcomments hsame
  refine ⟨xs, hxs, htakes, ?_⟩
  split_ifs
  · exact Doc.get_set_self ..
  · exact hsame

/-- The exceptions of `to_json`. -/
theorem to_json_error {doc : Doc} {e : PyError} (h : to_json doc = .error e) :
    e = .keyError "_id" ∨ e = .typeError := by
  unfold to_json at h
  cases hid : idPart doc with
  | error e' =>
    rw [hid] at h
    unfold idPart at hid
    split at hid
    · cases hid
    -- without an `_id` the first line raises
    · left
      rw [← Except.error.inj h, ← Except.error.inj hid]
  | ok doc₁ =>
  right
  rw [hid] at h
  replace h : (likesPart (idsPart doc₁)).bind commentsPart = .error e := h
  cases hlikes : likesPart (idsPart doc₁) with
  | error e' =>
    rw [hlikes] at h
    unfold likesPart at hlikes
    split at hlikes
    · cases hlikes
    · next v _ =>
      cases hitems : iterate v with
      | ok xs =>
        rw [hitems] at hlikes
        cases hlikes
      | error e'' =>
        rw [hitems] at hlikes
        rw [← Except.error.inj h, ← Except.error.inj hlikes, iterate_error hitems]
  | ok doc₂ =>
    rw [hlikes] at h
    exact commentsPart_error h

/-- An encodable document is encoded. -/
theorem Encodable.to_json_ok {doc : Doc} (h : Encodable doc) : ∃ out, to_json doc = .ok out := by
  obtain ⟨v, hv⟩ := h.id
  have hidPart : idPart doc = .ok (doc.set "_id" (.str (str_ v))) := by
    unfold idPart
    rw [hv]
  have hget : ∀ f, f ∉ ["author_id", "from_user_id", "to_user_id", "user_id"] → f ≠ "_id" →
      (idsPart (doc.set "_id" (.str (str_ v)))).get f = doc.get f := by
    intro f hf hid
    rw [get_idsPart_of_ne hf, Doc.get_set_of_ne doc _ hid]
  -- the later parts read the likes and the comments of the document itself
  have hlikes : ∃ doc₂, likesPart (idsPart (doc.set "_id" (.str (str_ v)))) = .ok doc₂ := by
    unfold likesPart
    rw [hget "likes" (by decide) (by decide)]
    cases hlikes : doc.get "likes" with
    | none => exact ⟨_, rfl⟩
    | some w =>
      obtain ⟨xs, hxs⟩ := h.likes w hlikes
      exact ⟨_, congrArg (Except.map _) hxs⟩
  obtain ⟨doc₂, hdoc₂⟩ := hlikes
  have hcomments : doc₂.get "comments" = doc.get "comments" := by
    rw [get_likesPart hdoc₂ (by decide), hget "comments" (by decide) (by decide)]
  have hlast : ∃ out, commentsPart doc₂ = .ok out := by
    unfold commentsPart
    rw [hcomments]
    cases hv : doc.get "comments" with
    | none => exact ⟨_, rfl⟩
    | some w =>
      obtain ⟨xs, hxs, htakes⟩ := h.comments w hv
      have hmap : xs.mapM commentPart = .ok (xs.map comment_) :=
        Fallible.mapM_eq_ok fun x hx => by rw [commentPart_eq, if_pos (htakes x hx)]
      show ∃ out, (iterate w >>= fun _ => _) = Except.ok out
      rw [hxs]
      show ∃ out, (xs.mapM commentPart >>= fun _ => _) = Except.ok out
      rw [hmap]
      cases w <;> exact ⟨_, rfl⟩
  obtain ⟨out, hout⟩ := hlast
  refine ⟨out, ?_⟩
  unfold to_json
  rw [hidPart]
  show (likesPart (idsPart (doc.set "_id" (.str (str_ v))))).bind commentsPart = .ok out
  rw [hdoc₂]
  exact hout

/-- Only such a document is encoded. -/
theorem encodable_iff {doc : Doc} : Encodable doc ↔ ∃ out, to_json doc = .ok out := by
  refine ⟨Encodable.to_json_ok, ?_⟩
  rintro ⟨out, hout⟩
  refine ⟨?_, fun v hv => ?_, fun v hv => ?_⟩
  · obtain ⟨doc₁, -, hid, -, -⟩ := to_json_parts hout
    unfold idPart at hid
    split at hid
    · next v hv => exact ⟨v, hv⟩
    · cases hid
  · obtain ⟨xs, hxs, -⟩ := get_likes_to_json hout hv
    exact ⟨xs, hxs⟩
  · obtain ⟨xs, hxs, htakes, -⟩ := get_comments_to_json hout hv
    exact ⟨xs, hxs, htakes⟩

end

/-! ## What is cached -/

mutual

/-- `json.dumps(value, default=str)`, as the value that `json.loads` gives back. -/
def json_dumps : Value → Value
  | .oid id => .str id.hex
  | .date ms => .str (isoformat " " ms)
  | .arr vs => .arr (dumpsList vs)
  | .obj fs => .obj (dumpsFields fs)
  | v => v

def dumpsList : List Value → List Value
  | [] => []
  | v :: vs => json_dumps v :: dumpsList vs

def dumpsFields : List (String × Value) → List (String × Value)
  | [] => []
  | (f, v) :: fs => (f, json_dumps v) :: dumpsFields fs

end

/-- `json.loads(value)`, where a text encodes a value; `None` is no value. -/
def json_loads : Value → Option Value
  | .null => none
  | v => some v

end SocialNetwork.MongoApi

import SocialNetwork.Lib.Document

/-!
# Collections of a document store

A collection is a list of documents in natural order. `Filter` and `Update` are the query and
update documents of the store, `find`, `findOne`, `insertOne`, `updateOne`, `deleteOne` its
operations, each atomic.

The second half is about collections keyed by a field (`Keyed`): an upsert by the key field touches
the document of its key only, and a key never gets a second document. A `Key` is a value that a
query compares as it stands; an array matches its elements too, an object may be an operator, and
a double equals an integer of another spelling.
-/

namespace DocStore

/-! ## Filters -/

/-- One condition on a document: `{f: {$eq: v}}`, `{f: {$ne: v}}`, `{f: {$gt: n}}`,
`{f: {$in: vs}}`. -/
inductive Cond
  | eq (f : String) (v : Value)
  | ne (f : String) (v : Value)
  | gt (f : String) (n : Int)
  | isIn (f : String) (vs : List Value)
deriving DecidableEq

/-- Equality in a query: the field has the value or is an array containing it; a missing
field counts as null. -/
def fieldEq (w : Option Value) (v : Value) : Bool :=
  match w with
  | none => v = .null
  | some (.arr xs) => .arr xs = v ∨ v ∈ xs
  | some w => w = v

namespace Cond

def holds (c : Cond) (d : Doc) : Bool :=
  match c with
  | eq f v => fieldEq (d.get f) v
  | ne f v => !fieldEq (d.get f) v
  | gt f n =>
    match d.get f with
    | some (.int m) => n < m
    | _ => false
  | isIn f vs => vs.any fun v => fieldEq (d.get f) v

end Cond

/-- A query: all of its conditions, or (`$or`) one of them. -/
inductive Filter
  | all (cs : List Cond)
  | any (cs : List Cond)
deriving DecidableEq

namespace Filter

def holds (f : Filter) (d : Doc) : Bool :=
  match f with
  | all cs => cs.all fun c => c.holds d
  | any cs => cs.any fun c => c.holds d

/-- Every integer of the query can be sent. -/
def encodable : Filter → Bool
  | all cs | any cs => cs.all fun
    | .eq _ v | .ne _ v => v.encodable
    | .gt _ n => isInt64 n
    | .isIn _ vs => vs.all fun v => v.encodable

/-- The query on one field. -/
def field (f : String) (v : Value) : Filter := all [.eq f v]

/-- The fields a document created by an upsert takes from the query. -/
def seed : Filter → Doc
  | all cs => cs.filterMap fun
    | .eq f v => some (f, v)
    | _ => none
  | any _ => []

@[simp] theorem holds_field (d : Doc) (f : String) (v : Value) :
    (field f v).holds d = fieldEq (d.get f) v := by
  simp [field, holds, Cond.holds]

end Filter

/-- A value that a query compares as it stands. -/
def Value.scalar : Value → Bool
  | .null | .bool _ | .int _ | .str _ | .oid _ | .date _ => true
  | .double _ | .arr _ | .obj _ => false

/-- What may identify a document. -/
abbrev Key := { v : Value // v.scalar = true }

instance : Coe String Key := ⟨fun s => ⟨.str s, rfl⟩⟩

/-- The key that a value is, where it is one. -/
def Value.key? (v : Value) : Option Key := if h : v.scalar = true then some ⟨v, h⟩ else none

theorem Value.key?_eq_some {v : Value} {k : Key} : v.key? = some k ↔ v = k.val := by
  unfold key?
  split
  · rw [Option.some.injEq]
    exact Subtype.ext_iff
  · next hv =>
    constructor
    · intro hk
      cases hk
    · intro hk
      exact absurd (hk ▸ k.property) hv

theorem fieldEq_key (s k : Key) : fieldEq (some s.val) k.val = decide (s = k) := by
  obtain ⟨v, hv⟩ := s
  cases v with
  | arr vs => cases hv
  | _ => exact decide_eq_decide.mpr Subtype.ext_iff.symm

@[simp] theorem fieldEq_str (s : String) (v : Value) :
    fieldEq (some (.str s)) v = decide (Value.str s = v) := rfl

/-! ## Updates -/

/-- An update document. -/
structure Update where
  set : Doc := []
  setOnInsert : Doc := []
  inc : List (String × Int) := []
  addToSet : Doc := []
  pull : Doc := []
  push : Doc := []
deriving DecidableEq

/-- `$inc` on one field: an absent field starts from zero, a field that is no integer is a
write error. -/
def incField (d : Doc) (x : String × Int) : Option Doc :=
  match d.get x.1 with
  | none => some (d.set x.1 (.int x.2))
  | some (.int m) => some (d.set x.1 (.int (m + x.2)))
  | some _ => none

/-- An update of one array field; an absent field starts from the empty array, a field that is
no array is a write error. -/
def arrayField (op : List Value → Value → List Value) (d : Doc) (x : String × Value) :
    Option Doc :=
  match d.get x.1 with
  | none => some (d.set x.1 (.arr (op [] x.2)))
  | some (.arr vs) => some (d.set x.1 (.arr (op vs x.2)))
  | some _ => none

/-- `$addToSet`: a value that is there is not added again. -/
def addToSetOp (vs : List Value) (v : Value) : List Value := if v ∈ vs then vs else vs ++ [v]
/-- `$pull`: every occurrence goes. -/
def pullOp (vs : List Value) (v : Value) : List Value := vs.filter fun w => w ≠ v
/-- `$push`: the value comes last. -/
def pushOp (vs : List Value) (v : Value) : List Value := vs ++ [v]

section Array

variable {α : Type} [DecidableEq α] {f : α → Value}

/-- The operators on arrays whose values stand for other things. -/
theorem addToSetOp_map (hf : Function.Injective f) (l : List α) (a : α) :
    addToSetOp (l.map f) (f a) = (if a ∈ l then l else l ++ [a]).map f := by
  have hmem : f a ∈ l.map f ↔ a ∈ l := List.mem_map_of_injective hf
  unfold addToSetOp
  by_cases ha : a ∈ l
  · rw [if_pos ha, if_pos (hmem.mpr ha)]
  · rw [if_neg ha, if_neg (mt hmem.mp ha), List.map_append, List.map_singleton]

theorem pullOp_map (hf : Function.Injective f) (l : List α) (a : α) :
    pullOp (l.map f) (f a) = (l.filter fun b => b ≠ a).map f := by
  unfold pullOp
  rw [List.filter_map]
  congr 1
  apply List.filter_congr
  intro b _
  simp only [Function.comp, ne_eq, hf.eq_iff]

end Array

/-- `$pull` leaves a document without the field alone. -/
def pullField (d : Doc) (x : String × Value) : Option Doc :=
  match d.get x.1 with
  | none => some d
  | some _ => arrayField pullOp d x

/-- An update of an array field sets that field only. -/
theorem arrayField_eq_some {op : List Value → Value → List Value} {d d' : Doc} {x : String × Value}
    (h : arrayField op d x = some d') : d' = d.set x.1 (.arr (op (d.entries x.1) x.2)) := by
  unfold arrayField at h
  unfold Doc.entries
  split at h
  · next hnone =>
    rw [hnone]
    exact (Option.some.inj h).symm
  · next vs hvs =>
    rw [hvs]
    exact (Option.some.inj h).symm
  · cases h

/-- What `$pull` does to a document; a missing list stays missing. -/
theorem pullField_eq_some {d d' : Doc} {x : String × Value} (h : pullField d x = some d') :
    d' = d ∨ d' = d.set x.1 (.arr (pullOp (d.entries x.1) x.2)) := by
  unfold pullField at h
  split at h
  · exact .inl (Option.some.inj h).symm
  · exact .inr (arrayField_eq_some h)

namespace Update

/-- The update of an existing document; `none` is a write error. -/
def apply (u : Update) (d : Doc) : Option Doc := do
  let d ← u.inc.foldlM incField (d.setAll u.set)
  let d ← u.addToSet.foldlM (arrayField addToSetOp) d
  let d ← u.pull.foldlM pullField d
  u.push.foldlM (arrayField pushOp) d

/-- The document an upsert creates. -/
def create (u : Update) (seed : Doc) : Option Doc := u.apply (seed.setAll u.setOnInsert)

/-- An update that only sets fields. -/
theorem apply_set (fs : Doc) (ins : Doc) (d : Doc) :
    ({ set := fs, setOnInsert := ins } : Update).apply d = some (d.setAll fs) := rfl

/-- An update that sets fields and increments one. -/
theorem apply_inc (fs : Doc) (x : String × Int) (d : Doc) :
    ({ set := fs, inc := [x] } : Update).apply d = incField (d.setAll fs) x := by
  simp [apply]

/-- Updates of one array field. -/
theorem apply_addToSet (x : String × Value) (d : Doc) :
    ({ addToSet := [x] } : Update).apply d = arrayField addToSetOp d x := by
  simp [apply]

theorem apply_pull (x : String × Value) (d : Doc) :
    ({ pull := [x] } : Update).apply d = pullField d x := by
  simp [apply]

theorem apply_push (x : String × Value) (d : Doc) :
    ({ push := [x] } : Update).apply d = arrayField pushOp d x := by
  simp [apply]

end Update

/-- What `$inc` makes of a field. -/
def bump (n : Int) : Option Value → Option Value
  | none => some (.int n)
  | some (.int m) => some (.int (m + n))
  | some v => some v

/-- A field that is absent or an integer. -/
def IsCount (w : Option Value) : Prop := w = none ∨ ∃ n, w = some (.int n)

/-- What was incremented is still a count. -/
theorem IsCount.bump {w : Option Value} (h : IsCount w) (n : Int) : IsCount (bump n w) := by
  obtain rfl | ⟨m, rfl⟩ := h
  · exact .inr ⟨n, rfl⟩
  · exact .inr ⟨m + n, rfl⟩

/-- `$inc` succeeds on a count and changes that field only. -/
theorem incField_of_isCount {d : Doc} {f : String} (h : IsCount (d.get f)) (n : Int) :
    ∃ d', incField d (f, n) = some d' ∧
      ∀ g, d'.get g = if g = f then bump n (d.get f) else d.get g := by
  obtain hf | ⟨m, hf⟩ := h
  · refine ⟨d.set f (.int n), by simp [incField, hf], fun g => ?_⟩
    rw [Doc.get_set, hf, bump]
  · refine ⟨d.set f (.int (m + n)), by simp [incField, hf], fun g => ?_⟩
    rw [Doc.get_set, hf, bump]

/-! ## Operations -/

/-- Replace the first document that satisfies `p`. -/
def replaceFirst (p : Doc → Bool) (d' : Doc) : List Doc → List Doc
  | [] => []
  | d :: ds => if p d then d' :: ds else d :: replaceFirst p d' ds

/-- `find`, in the order of the collection. -/
def find (f : Filter) (c : List Doc) : List Doc := c.filter f.holds

/-- The first document that the filter selects. -/
def findOne (f : Filter) (c : List Doc) : Option Doc := c.find? f.holds

def insertOne (d : Doc) (c : List Doc) : List Doc := c ++ [d]

/-- `update_one`: the first matching document is updated; without one, an upsert creates a
document. The result is the number of matched documents and the new collection. -/
def updateOne (f : Filter) (u : Update) (upsert : Bool) (c : List Doc) :
    Option (Nat × List Doc) :=
  match c.find? f.holds with
  | some d => (u.apply d).map fun d' => (1, replaceFirst f.holds d' c)
  | none =>
    if upsert then (u.create f.seed).map fun d' => (0, c ++ [d'])
    else some (0, c)

/-- `delete_one`: the first matching document is removed. -/
def deleteOne (f : Filter) (c : List Doc) : Nat × List Doc :=
  match c.find? f.holds with
  | some _ => (1, c.eraseP f.holds)
  | none => (0, c)

/-- The others are kept, in order. -/
theorem deleteOne_sublist (f : Filter) (c : List Doc) : List.Sublist (deleteOne f c).2 c := by
  unfold deleteOne
  split
  · exact List.eraseP_sublist
  · exact List.Sublist.refl c

/-- What `delete_one` does: remove the first match, or nothing. -/
theorem deleteOne_cases (f : Filter) (c : List Doc) :
    (∃ l₁ d l₂, c = l₁ ++ d :: l₂ ∧ findOne f c = some d ∧ f.holds d = true ∧
        deleteOne f c = (1, l₁ ++ l₂)) ∨
      ((∀ d ∈ c, f.holds d = false) ∧ findOne f c = none ∧ deleteOne f c = (0, c)) := by
  unfold deleteOne findOne
  cases hfound : c.find? f.holds with
  | none =>
    have hno : ∀ d ∈ c, f.holds d = false := fun d hd => by
      simpa using List.find?_eq_none.mp hfound d hd
    exact .inr ⟨hno, rfl, rfl⟩
  | some d =>
    obtain ⟨hp, l₁, l₂, hc, hbefore⟩ := List.find?_eq_some_iff_append.mp hfound
    refine .inl ⟨l₁, d, l₂, hc, rfl, hp, ?_⟩
    have herase : (l₁ ++ d :: l₂).eraseP f.holds = l₁ ++ l₂ := by
      rw [List.eraseP_append_right _ fun x hx => by simpa using hbefore x hx, List.eraseP_cons_of_pos hp]
    show (1, c.eraseP f.holds) = (1, l₁ ++ l₂)
    rw [hc, herase]

/-- The first that is selected is replaced. -/
theorem replaceFirst_split {p : Doc → Bool} {d d' : Doc} {l₁ l₂ : List Doc}
    (h₁ : ∀ x ∈ l₁, p x = false) (hd : p d = true) :
    replaceFirst p d' (l₁ ++ d :: l₂) = l₁ ++ d' :: l₂ := by
  induction l₁ with
  | nil => rw [List.nil_append, replaceFirst, if_pos hd, List.nil_append]
  | cons x l₁ ih =>
    have hx : ¬ p x = true := by
      rw [h₁ x (List.mem_cons_self ..)]
      exact Bool.false_ne_true
    rw [List.cons_append, replaceFirst, if_neg hx,
      ih fun y hy => h₁ y (List.mem_cons_of_mem _ hy), List.cons_append]

/-- What `update_one` does: update the first match in its place, or create, or nothing. -/
theorem updateOne_eq_some {f : Filter} {u : Update} {upsert : Bool} {c c' : List Doc} {n : Nat}
    (h : updateOne f u upsert c = some (n, c')) :
    (∃ l₁ d l₂ d', c = l₁ ++ d :: l₂ ∧ f.holds d = true ∧ u.apply d = some d' ∧
        n = 1 ∧ c' = l₁ ++ d' :: l₂) ∨
      (∃ d', (∀ d ∈ c, f.holds d = false) ∧ upsert = true ∧ u.create f.seed = some d' ∧
        n = 0 ∧ c' = c ++ [d']) ∨
      ((∀ d ∈ c, f.holds d = false) ∧ upsert = false ∧ n = 0 ∧ c' = c) := by
  unfold updateOne at h
  split at h
  -- the first match is replaced; without one a document is created, if the update may
  · next d hd =>
    obtain ⟨hp, l₁, l₂, hc, h₁⟩ := List.find?_eq_some_iff_append.mp hd
    obtain ⟨d', hd', he⟩ := Option.map_eq_some_iff.mp h
    cases he
    refine .inl ⟨l₁, d, l₂, d', hc, hp, hd', rfl, ?_⟩
    rw [hc]
    exact replaceFirst_split (fun x hx => by simpa using h₁ x hx) hp
  · next hn =>
    have hno : ∀ d ∈ c, f.holds d = false := fun d hd => by
      simpa using List.find?_eq_none.mp hn d hd
    split at h
    · next hu =>
      obtain ⟨d', hd', he⟩ := Option.map_eq_some_iff.mp h
      cases he
      exact .inr (.inl ⟨d', hno, hu, hd', rfl, rfl⟩)
    · next hu =>
      cases h
      exact .inr (.inr ⟨hno, by simpa using hu, rfl, rfl⟩)

/-! ## Collections keyed by a field -/

/-- Every document has a key in the key field, and no two have the same one. -/
structure Keyed (key : String) (c : List Doc) : Prop where
  has : ∀ d ∈ c, ∃ s : Key, d.get key = some s.val
  nodup : (c.map (·.get key)).Nodup

/-- The document with a given key. -/
def byKey (key : String) (c : List Doc) (k : Key) : Option Doc :=
  findOne (.field key k.val) c

theorem keyed_nil (key : String) : Keyed key [] :=
  ⟨fun _ h => absurd h List.not_mem_nil, List.nodup_nil⟩

/-- A document is found by its own key. -/
theorem holds_key {key : String} {d : Doc} {s : Key} (h : d.get key = some s.val)
    (k : Key) : (Filter.field key k.val).holds d = decide (s = k) := by
  rw [Filter.holds_field, h, fieldEq_key]

theorem byKey_append (key : String) (l₁ l₂ : List Doc) (k : Key) :
    byKey key (l₁ ++ l₂) k = (byKey key l₁ k).or (byKey key l₂ k) := List.find?_append

theorem byKey_cons {key : String} {d : Doc} {s : Key} (h : d.get key = some s.val)
    (l : List Doc) (k : Key) :
    byKey key (d :: l) k = if s = k then some d else byKey key l k := by
  rw [byKey, findOne, List.find?_cons, holds_key h]
  by_cases hk : s = k
  · rw [if_pos hk, decide_eq_true hk]
  · rw [if_neg hk, decide_eq_false hk, byKey, findOne]

theorem byKey_eq_none {key : String} {c : List Doc} {k : Key}
    (h : ∀ d ∈ c, (Filter.field key k.val).holds d = false) : byKey key c k = none :=
  List.find?_eq_none.mpr fun d hd => by simp [h d hd]

/-- In a keyed collection no document before the one of a key has that key. -/
theorem Keyed.byKey_append_of_some {key : String} {l₁ l₂ : List Doc} {d : Doc} {k : Key}
    (hc : Keyed key (l₁ ++ d :: l₂)) (hk : d.get key = some k.val) : byKey key l₁ k = none := by
  refine byKey_eq_none fun x hx => ?_
  obtain ⟨t, ht⟩ := hc.has x (by simp [hx])
  have hnd := hc.nodup
  rw [List.map_append, List.map_cons, hk, List.nodup_append] at hnd
  have hts := hnd.2.2 _ (List.mem_map_of_mem hx) _ (List.mem_cons_self ..)
  rw [holds_key ht, decide_eq_false fun he => hts (by rw [ht, he])]

/-- In a keyed collection the document of a key is found under it. -/
theorem Keyed.byKey_of_mem {key : String} {c : List Doc} {d : Doc} {k : Key}
    (hc : Keyed key c) (hd : d ∈ c) (hk : d.get key = some k.val) : byKey key c k = some d := by
  obtain ⟨l₁, l₂, rfl⟩ := List.append_of_mem hd
  rw [byKey_append, hc.byKey_append_of_some hk, byKey_cons hk, if_pos rfl, Option.none_or]

/-- What is found under a key is in the collection and has that key. -/
theorem Keyed.of_byKey {key : String} {c : List Doc} {d : Doc} {k : Key}
    (hc : Keyed key c) (h : byKey key c k = some d) : d ∈ c ∧ d.get key = some k.val := by
  have hd : d ∈ c := List.mem_of_find?_eq_some h
  obtain ⟨s, hs⟩ := hc.has d hd
  have hp := List.find?_some h
  rw [holds_key hs, decide_eq_true_eq] at hp
  exact ⟨hd, hp ▸ hs⟩

/-- Replacing a document by one with the same key leaves a keyed collection keyed. -/
theorem Keyed.replace {key : String} {l₁ l₂ : List Doc} {d d' : Doc}
    (hc : Keyed key (l₁ ++ d :: l₂)) (h : d'.get key = d.get key) :
    Keyed key (l₁ ++ d' :: l₂) := by
  refine ⟨fun x hx => ?_, ?_⟩
  · rw [List.mem_append, List.mem_cons] at hx
    obtain hx | rfl | hx := hx
    · exact hc.has x (by simp [hx])
    · rw [h]
      exact hc.has d (by simp)
    · exact hc.has x (by simp [hx])
  · have hnd := hc.nodup
    rw [List.map_append, List.map_cons] at hnd ⊢
    rw [h]
    exact hnd

/-- Adding a document under a new key leaves a keyed collection keyed. -/
theorem Keyed.add {key : String} {c : List Doc} {d : Doc} {k : Key} (hc : Keyed key c)
    (hd : d.get key = some k.val) (hno : ∀ x ∈ c, (Filter.field key k.val).holds x = false) :
    Keyed key (c ++ [d]) := by
  refine ⟨fun x hx => ?_, ?_⟩
  · rw [List.mem_append, List.mem_singleton] at hx
    obtain hx | rfl := hx
    · exact hc.has x hx
    · exact ⟨k, hd⟩
  · rw [List.map_append, List.nodup_append]
    refine ⟨hc.nodup, List.pairwise_singleton _ _, ?_⟩
    intro a ha b hb hab
    obtain ⟨x, hx, rfl⟩ := List.mem_map.mp ha
    rw [List.map_singleton, List.mem_singleton, hd] at hb
    have hxk := hno x hx
    rw [holds_key (hab.trans hb)] at hxk
    simp at hxk

section Upsert

variable {key : String} {c c' : List Doc} {u : Update} {k : Key} {n : Nat}

/-- On the documents of a collection the update succeeds and keeps the key field, and so does
the creation of a document. -/
structure KeepsKey (key : String) (c : List Doc) (u : Update) (k : Key) : Prop where
  apply : ∀ d ∈ c, d.get key = some k.val →
    ∃ d', u.apply d = some d' ∧ d'.get key = some k.val
  create : ∃ d', u.create [(key, k.val)] = some d' ∧ d'.get key = some k.val

theorem KeepsKey.of_apply {d d' : Doc} (hu : KeepsKey key c u k) (hm : d ∈ c)
    (hd : d.get key = some k.val) (ha : u.apply d = some d') : d'.get key = some k.val := by
  obtain ⟨x, hx, hk⟩ := hu.apply d hm hd
  rw [ha, Option.some.injEq] at hx
  rw [hx, hk]

theorem KeepsKey.of_create {d' : Doc} (hu : KeepsKey key c u k)
    (ha : u.create [(key, k.val)] = some d') : d'.get key = some k.val := by
  obtain ⟨x, hx, hk⟩ := hu.create
  rw [ha, Option.some.injEq] at hx
  rw [hx, hk]

/-- Such an upsert succeeds. -/
theorem Keyed.exists_upsert (hc : Keyed key c) (hu : KeepsKey key c u k) :
    ∃ n c', updateOne (.field key k.val) u true c = some (n, c') := by
  unfold updateOne
  split
  · next d hd =>
    obtain ⟨s, hs⟩ := hc.has d (List.mem_of_find?_eq_some hd)
    have hp := List.find?_some hd
    rw [holds_key hs, decide_eq_true_eq] at hp
    obtain ⟨d', hd', -⟩ := hu.apply d (List.mem_of_find?_eq_some hd) (hp ▸ hs)
    exact ⟨1, _, by rw [hd', Option.map_some]⟩
  · obtain ⟨d', hd', -⟩ := hu.create
    refine ⟨0, c ++ [d'], ?_⟩
    rw [if_pos rfl]
    exact congrArg (Option.map _) hd'

/-- Where the documents of the collection come from after a keyed upsert. -/
theorem Keyed.mem_upsert (hc : Keyed key c)
    (h : updateOne (.field key k.val) u true c = some (n, c')) {x : Doc} (hx : x ∈ c') :
    x ∈ c ∨ (∃ d ∈ c, d.get key = some k.val ∧ u.apply d = some x) ∨
      u.create [(key, k.val)] = some x := by
  obtain ⟨l₁, d, l₂, d', rfl, hd, ha, -, rfl⟩ | ⟨d', hno, -, ha, -, rfl⟩ | ⟨-, hf, -, -⟩ :=
    updateOne_eq_some h
  · obtain ⟨s, hs⟩ := hc.has d (by simp)
    have hk : s = k := by simpa [holds_key hs] using hd
    rcases List.mem_append.mp hx with hx | hx
    · exact .inl (by simp [hx])
    · rcases List.mem_cons.mp hx with rfl | hx
      · exact .inr (.inl ⟨d, by simp, hk ▸ hs, ha⟩)
      · exact .inl (by simp [hx])
  · rcases List.mem_append.mp hx with hx | hx
    · exact .inl hx
    · rw [List.mem_singleton.mp hx]
      exact .inr (.inr ha)
  · cases hf

/-- A keyed upsert leaves one document per key. -/
theorem Keyed.upsert (hc : Keyed key c) (hu : KeepsKey key c u k)
    (h : updateOne (.field key k.val) u true c = some (n, c')) : Keyed key c' := by
  obtain ⟨l₁, d, l₂, d', rfl, hd, ha, -, rfl⟩ | ⟨d', hno, -, ha, -, rfl⟩ | ⟨-, hf, -, -⟩ :=
    updateOne_eq_some h
  · obtain ⟨s, hs⟩ := hc.has d (by simp)
    have hk : s = k := by simpa [holds_key hs] using hd
    exact hc.replace (by rw [hs, hk]; exact hu.of_apply (by simp) (hk ▸ hs) ha)
  · exact hc.add (hu.of_create ha) hno
  · cases hf

/-- A keyed upsert changes the document of its key only. -/
theorem Keyed.byKey_upsert (hc : Keyed key c) (hu : KeepsKey key c u k)
    (h : updateOne (.field key k.val) u true c = some (n, c')) (j : Key) :
    byKey key c' j =
      if j = k then
        (match byKey key c k with
        | some d => u.apply d
        | none => u.create [(key, k.val)])
      else byKey key c j := by
  obtain ⟨l₁, d, l₂, d', rfl, hd, ha, -, rfl⟩ | ⟨d', hno, -, ha, -, rfl⟩ | ⟨-, hf, -, -⟩ :=
    updateOne_eq_some h
  · obtain ⟨s, hs⟩ := hc.has d (by simp)
    have hk : s = k := by simpa [holds_key hs] using hd
    subst hk
    have hd' := hu.of_apply (by simp) hs ha
    -- no document before the replaced one has its key
    have hl₁ : byKey key l₁ s = none := hc.byKey_append_of_some hs
    have hs' : byKey key (l₁ ++ d :: l₂) s = some d := hc.byKey_of_mem (by simp) hs
    rw [hs', byKey_append, byKey_append, byKey_cons hs, byKey_cons hd']
    by_cases hj : j = s
    · subst hj
      rw [hl₁, if_pos rfl, if_pos rfl, Option.none_or]
      exact ha.symm
    · rw [if_neg (Ne.symm hj), if_neg (Ne.symm hj), if_neg hj]
  · have hb : byKey key c k = none := byKey_eq_none hno
    rw [byKey_append, byKey_cons (hu.of_create ha), hb]
    by_cases hj : j = k
    · subst hj
      rw [hb, if_pos rfl, if_pos rfl, Option.none_or]
      exact ha.symm
    · rw [if_neg (Ne.symm hj), if_neg hj]
      exact Option.or_none
  · cases hf

end Upsert

end DocStore

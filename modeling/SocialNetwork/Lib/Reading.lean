import SocialNetwork.Lib.Schema

/-!
# Reading documents

A reader makes something else of a value, where it can. `Doc.read` reads a field. What a schema says
of a field is enough for the reader that fits it (`Schema.Fits`).
-/

namespace DocStore

/-! ## Readers -/

namespace Value

def str? : Value → Option String
  | str s => some s
  | _ => none

def int? : Value → Option Int
  | int n => some n
  | _ => none

def bool? : Value → Option Bool
  | bool b => some b
  | _ => none

def oid? : Value → Option ObjectId
  | oid id => some id
  | _ => none

def date? : Value → Option Int
  | date ms => some ms
  | _ => none

/-- An array whose elements can all be read. -/
def list? {α : Type} (p : Value → Option α) : Value → Option (List α)
  | arr vs => vs.mapM p
  | _ => none

section List

variable {α : Type} {p : Value → Option α} {g : α → Value}

/-- What was written member by member reads back. -/
theorem mapM_map (h : ∀ a, p (g a) = some a) (xs : List α) : (xs.map g).mapM p = some xs := by
  induction xs with
  | nil => rfl
  | cons x xs ih =>
    rw [List.map_cons, List.mapM_cons, h, ih]
    rfl

/-- What is written element by element is read back. -/
theorem list?_map (h : ∀ a, p (g a) = some a) (xs : List α) : list? p (arr (xs.map g)) = some xs :=
  mapM_map h xs

/-- An array that is read is what its elements are written as. -/
theorem eq_map_of_list? (h : ∀ v a, p v = some a → v = g a) {v : Value} {xs : List α}
    (hv : list? p v = some xs) : v = arr (xs.map g) := by
  have hlist : ∀ (vs : List Value) (xs : List α), vs.mapM p = some xs → vs = xs.map g := by
    intro vs
    induction vs with
    | nil =>
      intro xs hxs
      rw [← Option.some.inj hxs]
      rfl
    | cons v vs ih =>
      intro xs hxs
      rw [List.mapM_cons] at hxs
      obtain ⟨a, ha, hxs⟩ := Option.bind_eq_some_iff.mp hxs
      obtain ⟨as, has, hxs⟩ := Option.bind_eq_some_iff.mp hxs
      rw [← Option.some.inj hxs, List.map_cons, ← h v a ha, ← ih as has]
  cases v with
  | arr vs => rw [hlist vs xs hv]
  | _ => cases hv

/-- An array is read if all its elements are. -/
theorem isSome_list? {vs : List Value} (h : ∀ v ∈ vs, (p v).isSome = true) :
    (list? p (arr vs)).isSome = true := by
  show (vs.mapM p).isSome = true
  induction vs with
  | nil => rfl
  | cons v vs ih =>
    rw [List.forall_mem_cons] at h
    obtain ⟨a, ha⟩ := Option.isSome_iff_exists.mp h.1
    obtain ⟨as, has⟩ := Option.isSome_iff_exists.mp (ih h.2)
    rw [List.mapM_cons, ha, has]
    rfl

/-- One more element at the end. -/
theorem list?_append {vs : List Value} {v : Value} {a : α} (ha : p v = some a) :
    list? p (arr (vs ++ [v])) = (list? p (arr vs)).map fun xs => xs ++ [a] := by
  show (vs ++ [v]).mapM p = (vs.mapM p).map fun xs => xs ++ [a]
  induction vs with
  | nil =>
    rw [List.nil_append, List.mapM_cons, ha]
    rfl
  | cons w vs ih =>
    rw [List.cons_append, List.mapM_cons, List.mapM_cons, ih]
    cases p w with
    | none => rfl
    | some b => cases vs.mapM p <;> rfl

end List

theorem eq_oid_of_oid? (v : Value) (id : ObjectId) (h : v.oid? = some id) : v = oid id := by
  cases v with
  | oid id' => rw [Option.some.inj h]
  | _ => cases h

end Value

/-! ## Fields -/

namespace Doc

variable {α : Type} {d fs : Doc} {f g : String} {p : Value → Option α}

/-- A field, read. -/
def read (d : Doc) (f : String) (p : Value → Option α) : Option α := (d.get f).bind p

theorem read_eq_some {a : α} : d.read f p = some a ↔ ∃ v, d.get f = some v ∧ p v = some a :=
  Option.bind_eq_some_iff

theorem read_congr {d' : Doc} (h : d'.get f = d.get f) : d'.read f p = d.read f p := by
  unfold read
  rw [h]

theorem read_set_self (v : Value) : (d.set f v).read f p = p v := by
  unfold read
  rw [get_set_self]
  rfl

theorem read_set_of_ne (v : Value) (h : g ≠ f) : (d.set f v).read g p = d.read g p :=
  read_congr (get_set_of_ne d v h)

/-- Fields that are set take the place of those that were there. -/
theorem get_setAll (hnodup : (fs.map Prod.fst).Nodup) (f : String) :
    (d.setAll fs).get f = (fs.get f).or (d.get f) := by
  cases hf : fs.get f with
  | none =>
    have hnot : f ∉ fs.map Prod.fst := by
      intro hmem
      obtain ⟨v, hv⟩ := exists_get hmem
      rw [hf] at hv
      cases hv
    exact get_setAll_of_notMem d hnot
  | some v => exact get_setAll_of_mem d hnodup (mem_of_get hf)

/-- The fields that were set, and the others as before. -/
theorem read_setAll (hnodup : (fs.map Prod.fst).Nodup) :
    (d.setAll fs).read f p = (fs.get f).elim (d.read f p) p := by
  unfold read
  rw [get_setAll hnodup]
  cases fs.get f <;> rfl

end Doc

/-! ## What a schema is enough for -/

namespace Schema

variable {α : Type} {s : Schema} {p : Value → Option α}

/-- Every value that satisfies the schema can be read. -/
def Fits (s : Schema) (p : Value → Option α) : Prop := ∀ v, s.holds v = true → (p v).isSome = true

theorem fits_string (check : String → Bool) : (string check).Fits Value.str? := by
  intro v h
  cases v with
  | str s => rfl
  | _ => cases h

theorem fits_text : text.Fits Value.str? := fits_string fun _ => true

theorem fits_bool : bool.Fits Value.bool? := by
  intro v h
  cases v with
  | bool b => rfl
  | _ => cases h

theorem fits_date : date.Fits Value.date? := by
  intro v h
  cases v with
  | date ms => rfl
  | _ => cases h

theorem fits_objectId : objectId.Fits Value.oid? := by
  intro v h
  cases v with
  | oid id => rfl
  | _ => cases h

/-- A list reads as the list of what its members read as. -/
theorem Fits.array (h : s.Fits p) : (array s).Fits (Value.list? p) := by
  intro v hv
  cases v with
  | arr vs =>
    rw [holds, List.all_eq_true] at hv
    exact Value.isSome_list? fun w hw => h w (hv w hw)
  | _ => cases hv

/-- A required field is read. -/
theorem exists_read {required : List String} {properties : List (String × Schema)} {d : Doc}
    (h : (object required properties).holds (.obj d) = true) {f : String} (hreq : f ∈ required)
    (hf : (f, s) ∈ properties) (hfits : s.Fits p) : ∃ a, d.read f p = some a := by
  obtain ⟨v, hv, hholds⟩ := exists_of_required h hreq hf
  obtain ⟨a, ha⟩ := Option.isSome_iff_exists.mp (hfits v hholds)
  exact ⟨a, Doc.read_eq_some.mpr ⟨v, hv, ha⟩⟩

/-- A field that is read satisfies its schema. -/
theorem holds_of_read {required : List String} {properties : List (String × Schema)} {d : Doc}
    (h : (object required properties).holds (.obj d) = true) {f : String}
    (hf : (f, s) ∈ properties) {a : α} (hread : d.read f p = some a) :
    ∃ v, p v = some a ∧ s.holds v = true := by
  obtain ⟨v, hv, ha⟩ := Doc.read_eq_some.mp hread
  exact ⟨v, ha, (holds_object_iff.mp h).2 (f, s) hf v hv⟩

end Schema

end DocStore

import Mathlib.Algebra.Order.Ring.Int
import Mathlib.Data.List.Basic
import Mathlib.Data.List.Nodup
import Mathlib.Tactic.Basic

/-!
# Documents of a document store

Values as they are stored (`Value`), documents as lists of named values, and reading and
setting a field. A field name occurs at most once in what these operations build; `get`
reads its first occurrence.
-/

namespace DocStore

/-- A 12-byte object id, as its 24 hexadecimal digits. -/
structure ObjectId where
  digits : List (Fin 16)
  length_eq : digits.length = 24
deriving DecidableEq, Repr

/-- The digits of `n`, the least significant one first. -/
def ObjectId.ofNat (n : Nat) : ObjectId where
  digits := (List.range 24).map fun i => Fin.ofNat 16 (n / 16 ^ i)
  length_eq := by simp

/-- A stored value. A double is carried by its bits and never computed with; a date is in
milliseconds. -/
inductive Value
  | null
  | bool (b : Bool)
  | int (n : Int)
  | double (bits : BitVec 64)
  | str (s : String)
  | oid (id : ObjectId)
  | date (ms : Int)
  | arr (xs : List Value)
  | obj (fs : List (String × Value))
deriving Repr

namespace Value

mutual

/-- Equality of values is decided by structural recursion through arrays and objects. -/
def decEq : (a b : Value) → Decidable (a = b)
  | .null, .null => isTrue rfl
  | .bool x, .bool y => decidable_of_iff (x = y) (by simp)
  | .int x, .int y => decidable_of_iff (x = y) (by simp)
  | .double x, .double y => decidable_of_iff (x = y) (by simp)
  | .str x, .str y => decidable_of_iff (x = y) (by simp)
  | .oid x, .oid y => decidable_of_iff (x = y) (by simp)
  | .date x, .date y => decidable_of_iff (x = y) (by simp)
  | .arr xs, .arr ys => @decidable_of_iff _ (xs = ys) (by simp) (decEqList xs ys)
  | .obj fs, .obj gs => @decidable_of_iff _ (fs = gs) (by simp) (decEqFields fs gs)
  | .null, .bool _ | .null, .int _ | .null, .double _ | .null, .str _ | .null, .oid _
  | .null, .date _ | .null, .arr _ | .null, .obj _
  | .bool _, .null | .bool _, .int _ | .bool _, .double _ | .bool _, .str _ | .bool _, .oid _
  | .bool _, .date _ | .bool _, .arr _ | .bool _, .obj _
  | .int _, .null | .int _, .bool _ | .int _, .double _ | .int _, .str _ | .int _, .oid _
  | .int _, .date _ | .int _, .arr _ | .int _, .obj _
  | .double _, .null | .double _, .bool _ | .double _, .int _ | .double _, .str _
  | .double _, .oid _ | .double _, .date _ | .double _, .arr _ | .double _, .obj _
  | .str _, .null | .str _, .bool _ | .str _, .int _ | .str _, .double _ | .str _, .oid _
  | .str _, .date _ | .str _, .arr _ | .str _, .obj _
  | .oid _, .null | .oid _, .bool _ | .oid _, .int _ | .oid _, .double _ | .oid _, .str _
  | .oid _, .date _ | .oid _, .arr _ | .oid _, .obj _
  | .date _, .null | .date _, .bool _ | .date _, .int _ | .date _, .double _ | .date _, .str _
  | .date _, .oid _ | .date _, .arr _ | .date _, .obj _
  | .arr _, .null | .arr _, .bool _ | .arr _, .int _ | .arr _, .double _ | .arr _, .str _
  | .arr _, .oid _ | .arr _, .date _ | .arr _, .obj _
  | .obj _, .null | .obj _, .bool _ | .obj _, .int _ | .obj _, .double _ | .obj _, .str _
  | .obj _, .oid _ | .obj _, .date _ | .obj _, .arr _ => isFalse (by intro h; cases h)

def decEqList : (xs ys : List Value) → Decidable (xs = ys)
  | [], [] => isTrue rfl
  | [], _ :: _ => isFalse (by intro h; cases h)
  | _ :: _, [] => isFalse (by intro h; cases h)
  | x :: xs, y :: ys =>
    match decEq x y, decEqList xs ys with
    | isTrue h, isTrue hs => isTrue (by rw [h, hs])
    | isFalse h, _ => isFalse (by intro he; cases he; exact h rfl)
    | _, isFalse hs => isFalse (by intro he; cases he; exact hs rfl)

def decEqFields : (fs gs : List (String × Value)) → Decidable (fs = gs)
  | [], [] => isTrue rfl
  | [], _ :: _ => isFalse (by intro h; cases h)
  | _ :: _, [] => isFalse (by intro h; cases h)
  | (f, v) :: fs, (g, w) :: gs =>
    match decEq v w, decEqFields fs gs with
    | isTrue h, isTrue hs =>
      if hf : f = g then isTrue (by rw [hf, h, hs]) else isFalse (by intro he; cases he; exact hf rfl)
    | isFalse h, _ => isFalse (by intro he; cases he; exact h rfl)
    | _, isFalse hs => isFalse (by intro he; cases he; exact hs rfl)

end

instance : DecidableEq Value := decEq

/-- Different ids are different values. -/
theorem oid_injective : Function.Injective Value.oid := fun _ _ h => oid.inj h

end Value

namespace ObjectId

/-- The value of a hexadecimal digit, in either case. -/
def digit? (c : Char) : Option (Fin 16) :=
  if '0' ≤ c ∧ c ≤ '9' then some (Fin.ofNat 16 (c.toNat - '0'.toNat))
  else if 'a' ≤ c ∧ c ≤ 'f' then some (Fin.ofNat 16 (c.toNat - 'a'.toNat + 10))
  else if 'A' ≤ c ∧ c ≤ 'F' then some (Fin.ofNat 16 (c.toNat - 'A'.toNat + 10))
  else none

/-- The id written as 24 hexadecimal digits. -/
def parse? (s : String) : Option ObjectId :=
  match s.toList.mapM digit? with
  | none => none
  | some digits => if h : digits.length = 24 then some ⟨digits, h⟩ else none

/-- An id has 24 digits. -/
theorem length_of_parse? {s : String} {id : ObjectId} (h : parse? s = some id) : s.length = 24 := by
  have hlength : ∀ (cs : List Char) (ks : List (Fin 16)), cs.mapM digit? = some ks →
      ks.length = cs.length := by
    intro cs
    induction cs with
    | nil =>
      rintro ks h
      rw [← Option.some.inj h]
      rfl
    | cons c cs ih =>
      intro ks h
      rw [List.mapM_cons] at h
      obtain ⟨k, -, h⟩ := Option.bind_eq_some_iff.mp h
      obtain ⟨ks', hks', h⟩ := Option.bind_eq_some_iff.mp h
      rw [← Option.some.inj h, List.length_cons, ih ks' hks', List.length_cons]
  unfold parse? at h
  split at h
  · cases h
  · next ks hks =>
    split_ifs at h with hlen
    rw [← String.length_toList, ← hlength _ _ hks, hlen]

/-- The case of a letter does not matter. -/
theorem digit?_toLower (c : Char) : digit? c.toLower = digit? c := by
  have hupper : ∀ n < 91, 65 ≤ n → digit? (Char.ofNat n).toLower = digit? (Char.ofNat n) := by
    decide
  by_cases hc : 65 ≤ c.toNat ∧ c.toNat < 91
  · rw [← Char.ofNat_toNat c]
    exact hupper c.toNat hc.2 hc.1
  · have hlower : c.toLower = c := by
      unfold Char.toLower
      rw [dif_neg]
      rintro ⟨hle, hge⟩
      apply hc
      have h₁ : (65 : UInt32).toNat ≤ c.val.toNat := hle
      have h₂ : c.val.toNat ≤ (90 : UInt32).toNat := hge
      have h₃ : c.toNat = c.val.toNat := rfl
      simp only [UInt32.reduceToNat] at h₁ h₂
      omega
    rw [hlower]

/-- Texts that differ in the case of letters are the same id. -/
theorem parse?_congr {s s' : String} (h : s.toList.map Char.toLower = s'.toList.map Char.toLower) :
    parse? s = parse? s' := by
  have hlower : ∀ cs : List Char, cs.mapM digit? = (cs.map Char.toLower).mapM digit? := by
    intro cs
    induction cs with
    | nil => rfl
    | cons c cs ih => rw [List.map_cons, List.mapM_cons, List.mapM_cons, digit?_toLower, ih]
  unfold parse?
  rw [hlower s.toList, hlower s'.toList, h]

/-- A text with another character is no id. -/
theorem parse?_eq_none {s : String} {c : Char} (hc : c ∈ s.toList) (hdigit : digit? c = none) :
    parse? s = none := by
  have hnone : ∀ cs : List Char, c ∈ cs → cs.mapM digit? = none := by
    intro cs hmem
    induction cs with
    | nil => cases hmem
    | cons x cs ih =>
      rw [List.mapM_cons]
      rcases List.mem_cons.mp hmem with heq | hmem
      · rw [← heq, hdigit]
        rfl
      · rw [ih hmem]
        cases digit? x <;> rfl
  unfold parse?
  rw [hnone s.toList hc]

/-- And nothing but digits. -/
theorem digit?_of_parse? {s : String} {id : ObjectId} (h : parse? s = some id) {c : Char}
    (hc : c ∈ s.toList) : (digit? c).isSome = true := by
  by_contra hdigit
  rw [parse?_eq_none hc (Option.not_isSome_iff_eq_none.mp hdigit)] at h
  cases h

/-- The hexadecimal digits of an id. -/
def hex (id : ObjectId) : String := String.ofList (id.digits.map fun k => Nat.digitChar k.val)

/-- A digit is read back. -/
theorem digit?_digitChar (k : Fin 16) : digit? (Nat.digitChar k.val) = some k := by
  revert k
  decide

/-- The digits of an id are read back. -/
@[simp] theorem parse?_hex (id : ObjectId) : parse? id.hex = some id := by
  have hdigits : ∀ ks : List (Fin 16),
      (ks.map fun k => Nat.digitChar k.val).mapM digit? = some ks := by
    intro ks
    induction ks with
    | nil => rfl
    | cons k ks ih =>
      rw [List.map_cons, List.mapM_cons, digit?_digitChar, ih]
      rfl
  unfold parse? hex
  rw [String.toList_ofList, hdigits]
  exact dif_pos id.length_eq

end ObjectId

/-- An integer of 64 bits, the widest a document can carry. -/
def isInt64 (n : Int) : Bool := -2 ^ 63 ≤ n && n < 2 ^ 63

namespace Value

mutual

/-- Every integer of the value can be stored. -/
def encodable : Value → Bool
  | .int n => isInt64 n
  | .arr vs => encodableList vs
  | .obj fs => encodableFields fs
  | _ => true

def encodableList : List Value → Bool
  | [] => true
  | v :: vs => encodable v && encodableList vs

def encodableFields : List (String × Value) → Bool
  | [] => true
  | (_, v) :: fs => encodable v && encodableFields fs

end

end Value

/-- A date of the years 1 to 9999, which are those of a `datetime`. -/
def isDate (ms : Int) : Bool := -62135596800000 ≤ ms && ms < 253402300800000

namespace Value

mutual

/-- Every date of the value can be read. -/
def decodable : Value → Bool
  | .date ms => isDate ms
  | .arr vs => decodableList vs
  | .obj fs => decodableFields fs
  | _ => true

def decodableList : List Value → Bool
  | [] => true
  | v :: vs => decodable v && decodableList vs

def decodableFields : List (String × Value) → Bool
  | [] => true
  | (_, v) :: fs => decodable v && decodableFields fs

end

theorem decodable_arr {vs : List Value} : (arr vs).decodable = true ↔ ∀ v ∈ vs, v.decodable = true := by
  rw [decodable]
  induction vs with
  | nil => simp [decodableList]
  | cons v vs ih => rw [decodableList, Bool.and_eq_true, ih, List.forall_mem_cons]

theorem decodable_obj {fs : List (String × Value)} :
    (obj fs).decodable = true ↔ ∀ x ∈ fs, x.2.decodable = true := by
  rw [decodable]
  induction fs with
  | nil => simp [decodableFields]
  | cons x fs ih => rw [decodableFields, Bool.and_eq_true, ih, List.forall_mem_cons]

end Value

/-- A document: its fields in order. -/
abbrev Doc := List (String × Value)

namespace Doc

/-- The value of a field, if the document has it. -/
def get (d : Doc) (f : String) : Option Value := d.lookup f

/-- Give a field a value, in its place when the document has it and at the end otherwise. -/
def set : Doc → String → Value → Doc
  | [], f, v => [(f, v)]
  | (g, w) :: d, f, v => if g = f then (g, v) :: d else (g, w) :: set d f v

@[simp] theorem get_nil (f : String) : get [] f = none := rfl

/-- The first field of the name counts. -/
theorem get_cons (g : String) (w : Value) (d : Doc) (f : String) :
    get ((g, w) :: d) f = if f = g then some w else get d f := by
  by_cases h : f = g
  · subst h
    simp [get]
  · have hb : (f == g) = false := beq_false_of_ne h
    rw [if_neg h, get, List.lookup_cons, hb]
    rfl

/-- Setting a field changes that field only. -/
theorem get_set (d : Doc) (f : String) (v : Value) (g : String) :
    (d.set f v).get g = if g = f then some v else d.get g := by
  induction d with
  | nil => rw [set, get_cons]
  | cons x d ih =>
    obtain ⟨h, w⟩ := x
    by_cases hf : h = f
    · rw [set, if_pos hf, get_cons, get_cons, hf]
      by_cases hg : g = f
      · rw [if_pos hg, if_pos hg]
      · rw [if_neg hg, if_neg hg, if_neg hg]
    · rw [set, if_neg hf, get_cons, get_cons, ih]
      by_cases hg : g = h
      · rw [if_pos hg, if_pos hg, if_neg (fun hc => hf (hg ▸ hc))]
      · rw [if_neg hg, if_neg hg]

@[simp] theorem get_set_self (d : Doc) (f : String) (v : Value) : (d.set f v).get f = some v := by
  rw [get_set, if_pos rfl]

theorem get_set_of_ne (d : Doc) {f g : String} (v : Value) (h : g ≠ f) :
    (d.set f v).get g = d.get g := by
  rw [get_set, if_neg h]

/-- A field that can be read, in place of one that could be. -/
theorem decodable_set {d : Doc} {f : String} {v : Value} (hv : v.decodable = true)
    (hold : ∀ w, d.get f = some w → w.decodable = true) :
    (Value.obj (d.set f v)).decodable = true ↔ (Value.obj d).decodable = true := by
  rw [Value.decodable_obj, Value.decodable_obj]
  induction d with
  | nil =>
    rw [set, List.forall_mem_singleton]
    exact iff_of_true hv nofun
  | cons x d ih =>
    obtain ⟨g, w⟩ := x
    rw [get_cons] at hold
    by_cases hg : g = f
    · rw [if_pos hg.symm] at hold
      rw [set, if_pos hg, List.forall_mem_cons, List.forall_mem_cons]
      exact and_congr_left' (iff_of_true hv (hold w rfl))
    · rw [if_neg (Ne.symm hg)] at hold
      rw [set, if_neg hg, List.forall_mem_cons, List.forall_mem_cons, ih hold]

/-- Set several fields, from left to right. -/
def setAll (d : Doc) (fs : Doc) : Doc := fs.foldl (fun d x => d.set x.1 x.2) d

@[simp] theorem setAll_nil (d : Doc) : d.setAll [] = d := rfl

@[simp] theorem setAll_cons (d : Doc) (x : String × Value) (fs : Doc) :
    d.setAll (x :: fs) = (d.set x.1 x.2).setAll fs := rfl

/-- A field that is not among those set keeps its value. -/
theorem get_setAll_of_notMem (d : Doc) {fs : Doc} {g : String} (h : g ∉ fs.map Prod.fst) :
    (d.setAll fs).get g = d.get g := by
  induction fs generalizing d with
  | nil => rfl
  | cons x fs ih =>
    rw [List.map_cons, List.mem_cons, not_or] at h
    rw [setAll_cons, ih _ h.2, get_set_of_ne d _ h.1]

/-- A field that is set once has the value it is set to. -/
theorem get_setAll_of_mem (d : Doc) {fs : Doc} (hnodup : (fs.map Prod.fst).Nodup)
    {x : String × Value} (hx : x ∈ fs) : (d.setAll fs).get x.1 = some x.2 := by
  induction fs generalizing d with
  | nil => cases hx
  | cons y fs ih =>
    rw [List.map_cons, List.nodup_cons] at hnodup
    rw [setAll_cons]
    rcases List.mem_cons.mp hx with rfl | hx
    · rw [get_setAll_of_notMem _ hnodup.1, get_set_self]
    · exact ih _ hnodup.2 hx

/-- An old value that is overwritten no longer matters. -/
theorem decodable_setAll {d fs : Doc} (hfs : ∀ x ∈ fs, x.2.decodable = true)
    (hold : ∀ x ∈ fs, ∀ w, d.get x.1 = some w → w.decodable = true) :
    (Value.obj (d.setAll fs)).decodable = true ↔ (Value.obj d).decodable = true := by
  induction fs generalizing d with
  | nil => exact Iff.rfl
  | cons y fs ih =>
    rw [List.forall_mem_cons] at hfs hold
    obtain ⟨hy, hrest⟩ := hfs
    rw [setAll_cons, ih hrest, decodable_set hy hold.1]
    intro x hx w hw
    rw [get_set] at hw
    split_ifs at hw
    · exact Option.some.inj hw ▸ hy
    · exact hold.2 x hx w hw

/-- The entries of an array field. -/
def entries (d : Doc) (f : String) : List Value :=
  match d.get f with
  | some (.arr xs) => xs
  | _ => []

theorem entries_set_self (d : Doc) (f : String) (xs : List Value) :
    (d.set f (.arr xs)).entries f = xs := by
  unfold entries
  rw [get_set_self]

theorem entries_set_of_ne (d : Doc) {f g : String} (v : Value) (h : g ≠ f) :
    (d.set f v).entries g = d.entries g := by
  unfold entries
  rw [get_set_of_ne d v h]

/-! ## Names of fields -/

theorem mem_of_get {d : Doc} {f : String} {v : Value} (h : d.get f = some v) : (f, v) ∈ d := by
  induction d with
  | nil => cases h
  | cons x d ih =>
    rw [get_cons] at h
    split_ifs at h with hf
    · rw [hf, ← Option.some.inj h]
      exact List.mem_cons_self
    · exact List.mem_cons_of_mem _ (ih h)

/-- A document has the fields that it names. -/
theorem exists_get {d : Doc} {f : String} (h : f ∈ d.map Prod.fst) : ∃ v, d.get f = some v := by
  induction d with
  | nil => cases h
  | cons x d ih =>
    rw [get_cons]
    by_cases hf : f = x.1
    · exact ⟨x.2, if_pos hf⟩
    · rw [if_neg hf]
      rw [List.map_cons, List.mem_cons] at h
      exact ih (h.resolve_left hf)

/-- Every field of a document that names each once is read. -/
theorem get_of_mem {d : Doc} (hnodup : (d.map Prod.fst).Nodup) {x : String × Value} (hx : x ∈ d) :
    d.get x.1 = some x.2 := by
  obtain ⟨v, hv⟩ := exists_get (List.mem_map_of_mem hx)
  have heq := List.inj_on_of_nodup_map hnodup (mem_of_get hv) hx rfl
  rw [hv, ← heq]

theorem mem_set {d : Doc} {f : String} {v : Value} {x : String × Value} (h : x ∈ d.set f v) :
    x ∈ d ∨ x = (f, v) := by
  induction d with
  | nil => exact .inr (List.mem_singleton.mp h)
  | cons y d ih =>
    rw [set] at h
    split_ifs at h with hy
    · rcases List.mem_cons.mp h with rfl | h
      · rw [hy]
        exact .inr rfl
      · exact .inl (List.mem_cons_of_mem _ h)
    · rcases List.mem_cons.mp h with rfl | h
      · exact .inl List.mem_cons_self
      · exact (ih h).imp (List.mem_cons_of_mem _) id

/-- A field that is set stays in its place, or it is the last one. -/
theorem names_set (d : Doc) (f : String) (v : Value) :
    (d.set f v).map Prod.fst =
      if f ∈ d.map Prod.fst then d.map Prod.fst else d.map Prod.fst ++ [f] := by
  induction d with
  | nil => rfl
  | cons y d ih =>
    rw [set]
    by_cases hy : y.1 = f
    · rw [if_pos hy, if_pos]
      · rfl
      · rw [← hy]
        exact List.mem_cons_self
    · rw [if_neg hy, List.map_cons, ih, List.map_cons]
      by_cases hf : f ∈ d.map Prod.fst
      · rw [if_pos hf, if_pos (List.mem_cons_of_mem _ hf)]
      · have hf' : f ∉ y.1 :: d.map Prod.fst := by
          rw [List.mem_cons, not_or]
          exact ⟨Ne.symm hy, hf⟩
        rw [if_neg hf, if_neg hf', List.cons_append]

/-- No name comes up twice. -/
theorem nodup_set {d : Doc} (h : (d.map Prod.fst).Nodup) (f : String) (v : Value) :
    ((d.set f v).map Prod.fst).Nodup := by
  rw [names_set]
  split_ifs with hf
  · exact h
  · rw [← List.concat_eq_append]
    exact h.concat hf

/-- A document that names each field once is what is read of it, in the order of its names. -/
theorem ext_get {d d' : Doc} (hnames : d.map Prod.fst = d'.map Prod.fst)
    (hnodup : (d.map Prod.fst).Nodup) (hget : ∀ f, d.get f = d'.get f) : d = d' := by
  have hnodup' : (d'.map Prod.fst).Nodup := hnames ▸ hnodup
  have hread : ∀ d : Doc, (d.map Prod.fst).Nodup →
      d = (d.map Prod.fst).map fun f => (f, (d.get f).getD .null) := by
    intro d hd
    rw [List.map_map]
    symm
    refine (List.map_congr_left fun x hx => ?_).trans (List.map_id d)
    show (x.1, (d.get x.1).getD .null) = x
    rw [get_of_mem hd hx]
    rfl
  rw [hread d hnodup, hread d' hnodup', hnames]
  exact List.map_congr_left fun f _ => by rw [hget f]

/-- A change of every value by itself. -/
theorem get_map (g : String → Value → Value) (d : Doc) (f : String) :
    Doc.get (d.map fun x => (x.1, g x.1 x.2)) f = (d.get f).map (g f) := by
  induction d with
  | nil => rfl
  | cons x d ih =>
    rw [List.map_cons, get_cons, get_cons, ih]
    by_cases hf : f = x.1
    · rw [if_pos hf, if_pos hf, hf]
      rfl
    · rw [if_neg hf, if_neg hf]

/-- Same fields with the same values, whatever their order. -/
def Same (d d' : Doc) : Prop := ∀ f, d.get f = d'.get f

theorem Same.refl (d : Doc) : d.Same d := fun _ => rfl

theorem Same.symm {d d' : Doc} (h : d.Same d') : d'.Same d := fun f => (h f).symm

end Doc

end DocStore

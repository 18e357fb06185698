import SocialNetwork.Lib.Collection
import SocialNetwork.Lib.Fallible
import Mathlib.Data.List.Forall2
import Mathlib.Data.List.Perm.Basic

/-!
# Aggregation pipelines

A pipeline runs its stages one after the other on the documents of a collection. What `$sort`
returns is any permutation of its input in the order of its keys: the order of equal keys is
left open (`Sorted`).
-/

namespace DocStore

/-! ## Sorting -/

/-- What values are ordered by: numbers and dates. -/
def num? : Option Value → Option Int
  | some (.int n) => some n
  | some (.date ms) => some ms
  | _ => none

/-- A document may stand before another one. A key is a field and whether it is descending. -/
def before : List (String × Bool) → Doc → Doc → Bool
  | [], _, _ => true
  | (f, descending) :: keys, d, d' =>
    match num? (d.get f), num? (d'.get f) with
    | some m, some n =>
      if m = n then before keys d d' else if descending then n < m else m < n
    | _, _ => true

/-- No row comes before one that it should follow. -/
def Sorted (keys : List (String × Bool)) (rows : List Doc) : Prop :=
  rows.Pairwise fun d d' => before keys d d' = true

instance (keys : List (String × Bool)) (rows : List Doc) : Decidable (Sorted keys rows) :=
  inferInstanceAs (Decidable (List.Pairwise _ _))

/-- The number in a field; what is none counts as zero. -/
def rank (f : String) (d : Doc) : Int := (num? (d.get f)).getD 0

/-- The order of the ranks. -/
def ranked : List (String × Bool) → Doc → Doc → Bool
  | [], _, _ => true
  | (f, descending) :: keys, d, d' =>
    if rank f d = rank f d' then ranked keys d d'
    else if descending then rank f d' < rank f d
    else rank f d < rank f d'

theorem ranked_cons {f : String} {descending : Bool} {keys : List (String × Bool)} {d d' : Doc} :
    ranked ((f, descending) :: keys) d d' = true ↔
      rank f d = rank f d' ∧ ranked keys d d' = true ∨
        descending = true ∧ rank f d' < rank f d ∨ descending = false ∧ rank f d < rank f d' := by
  show (if rank f d = rank f d' then ranked keys d d'
    else if descending then decide (rank f d' < rank f d)
    else decide (rank f d < rank f d')) = true ↔ _
  by_cases heq : rank f d = rank f d'
  · simp only [heq, if_true, true_and, Int.lt_irrefl, and_false, or_false]
  · cases descending
    · simp [heq]
    · simp [heq]

theorem ranked_total (keys : List (String × Bool)) (d d' : Doc) :
    (ranked keys d d' || ranked keys d' d) = true := by
  induction keys with
  | nil => rfl
  | cons x keys ih =>
    obtain ⟨f, descending⟩ := x
    rw [Bool.or_eq_true] at ih ⊢
    rw [ranked_cons, ranked_cons]
    rcases Int.lt_trichotomy (rank f d) (rank f d') with hlt | heq | hlt
    · cases descending
      · exact .inl (.inr (.inr ⟨rfl, hlt⟩))
      · exact .inr (.inr (.inl ⟨rfl, hlt⟩))
    · exact ih.imp (fun h => .inl ⟨heq, h⟩) fun h => .inl ⟨heq.symm, h⟩
    · cases descending
      · exact .inr (.inr (.inr ⟨rfl, hlt⟩))
      · exact .inl (.inr (.inl ⟨rfl, hlt⟩))

theorem ranked_trans (keys : List (String × Bool)) (a b c : Doc) (hab : ranked keys a b = true)
    (hbc : ranked keys b c = true) : ranked keys a c = true := by
  induction keys with
  | nil => rfl
  | cons x keys ih =>
    obtain ⟨f, descending⟩ := x
    rw [ranked_cons] at hab hbc ⊢
    -- the first key decides unless the three are equal in it
    rcases hab with ⟨heq, hab⟩ | ⟨hd, hlt⟩ | ⟨hd, hlt⟩
    · rw [heq]
      exact hbc.imp (fun h => ⟨h.1, ih hab h.2⟩) id
    · right
      left
      refine ⟨hd, ?_⟩
      rcases hbc with ⟨heq, -⟩ | ⟨-, hlt'⟩ | ⟨hd', -⟩
      · omega
      · omega
      · rw [hd] at hd'
        cases hd'
    · right
      right
      refine ⟨hd, ?_⟩
      rcases hbc with ⟨heq, -⟩ | ⟨hd', -⟩ | ⟨-, hlt'⟩
      · omega
      · rw [hd] at hd'
        cases hd'
      · omega

/-- Among documents with numbers the two orders agree. -/
theorem before_eq_ranked {keys : List (String × Bool)} {d d' : Doc}
    (h : ∀ x ∈ keys, (num? (d.get x.1)).isSome = true ∧ (num? (d'.get x.1)).isSome = true) :
    before keys d d' = ranked keys d d' := by
  induction keys with
  | nil => rfl
  | cons x keys ih =>
    obtain ⟨f, descending⟩ := x
    rw [List.forall_mem_cons] at h
    obtain ⟨m, hm⟩ := Option.isSome_iff_exists.mp h.1.1
    obtain ⟨n, hn⟩ := Option.isSome_iff_exists.mp h.1.2
    simp only [before, ranked, rank, hm, hn, Option.getD_some, ih h.2]

/-- Documents that all have numbers in some fields can be sorted by them. -/
theorem exists_sorted {keys : List (String × Bool)} {docs : List Doc}
    (h : ∀ d ∈ docs, ∀ x ∈ keys, (num? (d.get x.1)).isSome = true) :
    ∃ rows, rows.Perm docs ∧ Sorted keys rows := by
  have hperm : (docs.mergeSort (ranked keys)).Perm docs := List.mergeSort_perm _ _
  refine ⟨docs.mergeSort (ranked keys), hperm, ?_⟩
  have hranked := List.pairwise_mergeSort (ranked_trans keys) (ranked_total keys) docs
  apply hranked.imp_of_mem
  intro d d' hd hd' hle
  rw [before_eq_ranked fun x hx =>
    ⟨h d (hperm.mem_iff.mp hd) x hx, h d' (hperm.mem_iff.mp hd') x hx⟩]
  exact hle

/-! ## Expressions -/

inductive Expr
  /-- `"$a.b"`. -/
  | field (path : List String)
  | int (n : Int)
  | size (e : Expr)
  | toString (e : Expr)
deriving DecidableEq

inductive AggregateError
  | notAnArray
  | conversion
deriving DecidableEq

/-- The value at a path. -/
def Doc.at? : Doc → List String → Option Value
  | _, [] => none
  | d, [f] => d.get f
  | d, f :: path =>
    match d.get f with
    | some (.obj fs) => Doc.at? fs path
    | _ => none

namespace Expr

/-- The value of an expression, `none` where it is missing. `$toString` is modelled on ids,
strings and integers. -/
def eval (d : Doc) : Expr → Except AggregateError (Option Value)
  | field path => .ok (d.at? path)
  | int n => .ok (some (.int n))
  | size e => do
    match ← eval d e with
    | some (.arr vs) => pure (some (.int vs.length))
    | _ => throw .notAnArray
  | toString e => do
    match ← eval d e with
    | none | some .null => pure (some .null)
    | some (.oid id) => pure (some (.str id.hex))
    | some (.str s) => pure (some (.str s))
    | some (.int n) => pure (some (.str (ToString.toString n)))
    | some _ => throw .conversion

end Expr

/-! ## Stages -/

inductive Stage (κ : Type)
  | match_ (f : Filter)
  /-- `$group` with `$sum` accumulators. -/
  | group (id : Expr) (sums : List (String × Expr))
  | lookup (from_ : κ) (localField foreignField as_ : String)
  | unwind (f : String)
  /-- `$project` of some fields and some computed ones, without the `_id`. -/
  | project (keep : List String) (computed : List (String × Expr))

/-- A pipeline that ends with a `$sort`. -/
structure Pipeline (κ : Type) where
  stages : List (Stage κ)
  sort : List (String × Bool)

/-- The values of a list, each one where it occurs first. -/
def firsts : List Value → List Value
  | [] => []
  | v :: vs => v :: (firsts vs).filter fun w => w ≠ v

/-- `$sum`; what is no number counts as zero. -/
def sumInts (vs : List (Option Value)) : Int :=
  (vs.map fun
    | some (.int n) => n
    | _ => 0).sum

namespace Stage

variable {κ : Type}

/-- One row for each value of the id, with its sums. -/
def runGroup (id : Expr) (sums : List (String × Expr)) (docs : List Doc) :
    Except AggregateError (List Doc) := do
  let keyed ← docs.mapM fun d => do
    let key ← id.eval d
    pure (key.getD .null, d)
  (firsts (keyed.map Prod.fst)).mapM fun key => do
    let members := (keyed.filter fun x => x.1 = key).map Prod.snd
    let fields ← sums.mapM fun x => do
      let vs ← members.mapM fun d => x.2.eval d
      pure (x.1, Value.int (sumInts vs))
    pure (("_id", key) :: fields)

/-- The documents of the other collection that belong to a document. -/
def joined (foreign : List Doc) (localField foreignField : String) (d : Doc) : List Doc :=
  foreign.filter fun x => fieldEq (x.get foreignField) ((d.get localField).getD .null)

/-- Every row with the foreign documents that match it. -/
def runLookup (foreign : List Doc) (localField foreignField as_ : String) (docs : List Doc) :
    List Doc :=
  docs.map fun d => d.set as_ (.arr ((joined foreign localField foreignField d).map .obj))

/-- One row for each member of the list. -/
def runUnwind (f : String) (docs : List Doc) : List Doc :=
  docs.flatMap fun d =>
    match d.get f with
    | some (.arr vs) => vs.map fun v => d.set f v
    | none | some .null => []
    | some _ => [d]

/-- The fields that are kept, and those computed. -/
def runProject (keep : List String) (computed : List (String × Expr)) (docs : List Doc) :
    Except AggregateError (List Doc) :=
  docs.mapM fun d => do
    let fields ← computed.mapM fun x => do
      let v ← x.2.eval d
      pure (x.1, v)
    pure ((d.filter fun x => x.1 ∈ keep) ++ fields.filterMap fun x => x.2.map fun v => (x.1, v))

/-- What one stage makes of its rows. -/
def run (env : κ → List Doc) : Stage κ → List Doc → Except AggregateError (List Doc)
  | match_ f, docs => .ok (find f docs)
  | group id sums, docs => runGroup id sums docs
  | lookup from_ localField foreignField as_, docs =>
    .ok (runLookup (env from_) localField foreignField as_ docs)
  | unwind f, docs => .ok (runUnwind f docs)
  | project keep computed, docs => runProject keep computed docs

end Stage

namespace Pipeline

variable {κ : Type}

/-- The documents that are sorted. -/
def run (env : κ → List Doc) (p : Pipeline κ) (docs : List Doc) :
    Except AggregateError (List Doc) :=
  p.stages.foldlM (fun docs stage => stage.run env docs) docs

/-- The rows may be what the pipeline returns. -/
def Returns (env : κ → List Doc) (p : Pipeline κ) (docs rows : List Doc) : Prop :=
  match p.run env docs with
  | .ok out => rows.Perm out ∧ Sorted p.sort rows
  | .error _ => False

instance (env : κ → List Doc) (p : Pipeline κ) (docs rows : List Doc) :
    Decidable (p.Returns env docs rows) := by
  unfold Returns
  cases p.run env docs <;> infer_instance

end Pipeline

/-! ## What stages read -/

theorem mem_of_mem_firsts {vs : List Value} {v : Value} (h : v ∈ firsts vs) : v ∈ vs := by
  induction vs with
  | nil => cases h
  | cons w vs ih =>
    rcases List.mem_cons.mp h with rfl | h
    · exact List.mem_cons_self ..
    · exact List.mem_cons_of_mem _ (ih (List.mem_filter.mp h).1)

theorem mem_firsts {vs : List Value} {v : Value} : v ∈ firsts vs ↔ v ∈ vs := by
  refine ⟨mem_of_mem_firsts, fun h => ?_⟩
  induction vs with
  | nil => cases h
  | cons w vs ih =>
    by_cases heq : v = w
    · rw [heq]
      exact List.mem_cons_self
    · apply List.mem_cons_of_mem
      rw [List.mem_filter, decide_eq_true_eq]
      exact ⟨ih ((List.mem_cons.mp h).resolve_left heq), heq⟩

theorem nodup_firsts (vs : List Value) : (firsts vs).Nodup := by
  induction vs with
  | nil => exact List.nodup_nil
  | cons w vs ih =>
    refine List.nodup_cons.mpr ⟨fun h => ?_, ih.filter _⟩
    exact of_decide_eq_true (List.mem_filter.mp h).2 rfl

/-- What is summed up are numbers. -/
theorem sumInts_map {α : Type} (f : α → Int) (xs : List α) :
    sumInts (xs.map fun x => some (.int (f x))) = (xs.map f).sum := by
  unfold sumInts
  rw [List.map_map]
  rfl

/-- The row of a group. -/
def groupRow (sums : List (String × (Doc → Option Value))) (key : Value) (members : List Doc) : Doc :=
  ("_id", key) :: sums.map fun x => (x.1, Value.int (sumInts (members.map x.2)))

/-- **Groups.** Where the key and the sums can be evaluated, there is one row for each key. -/
theorem Stage.runGroup_eq {id : Expr} {exprs : List (String × Expr)} {docs : List Doc}
    {key : Doc → Value} {sums : List (String × (Doc → Option Value))}
    (hkey : ∀ d ∈ docs, id.eval d = .ok (some (key d)))
    (hsums : List.Forall₂ (fun x y => x.1 = y.1 ∧ ∀ d ∈ docs, Expr.eval d x.2 = .ok (y.2 d))
      exprs sums) :
    runGroup id exprs docs = .ok ((firsts (docs.map key)).map fun k =>
      groupRow sums k (docs.filter fun d => key d = k)) := by
  have hkeyed : (docs.mapM fun d => do
      let v ← id.eval d
      pure (v.getD .null, d)) = .ok (docs.map fun d => (key d, d)) := by
    apply Fallible.mapM_eq_ok
    intro d hd
    rw [hkey d hd]
    rfl
  have hmembers : ∀ k : Value,
      ((docs.map fun d => (key d, d)).filter fun x => x.1 = k).map Prod.snd =
        docs.filter fun d => key d = k := by
    intro k
    rw [List.filter_map, List.map_map]
    exact List.map_id _
  -- by induction over the accumulators: each is the sum over the members of the group
  have hfields : ∀ members : List Doc, (∀ d ∈ members, d ∈ docs) →
      (exprs.mapM fun x => do
        let vs ← members.mapM fun d => Expr.eval d x.2
        pure (x.1, Value.int (sumInts vs))) =
      (.ok (sums.map fun x => (x.1, Value.int (sumInts (members.map x.2)))) :
        Except AggregateError _) := by
    intro members hsub
    induction hsums with
    | nil => rfl
    | @cons x y exprs sums hxy _ ih =>
      have hvalues : (members.mapM fun d => Expr.eval d x.2) = .ok (members.map y.2) :=
        Fallible.mapM_eq_ok fun d hd => hxy.2 d (hsub d hd)
      rw [List.mapM_cons, hvalues, ih, List.map_cons, hxy.1]
      rfl
  unfold runGroup
  rw [hkeyed]
  show (firsts ((docs.map fun d => (key d, d)).map Prod.fst)).mapM _ = _
  rw [List.map_map]
  apply Fallible.mapM_eq_ok
  intro k _
  rw [hmembers]
  have hrow := hfields (docs.filter fun d => key d = k) fun d hd => List.mem_of_mem_filter hd
  simp only [hrow]
  rfl

/-- The `_id` of a group is the key of one of its documents. -/
theorem Stage.id_of_mem_runGroup {id : Expr} {sums : List (String × Expr)} {docs out : List Doc}
    (h : Stage.runGroup id sums docs = .ok out) {d : Doc} (hd : d ∈ out) :
    ∃ x ∈ docs, ∃ v, id.eval x = .ok v ∧ d.get "_id" = some (v.getD .null) := by
  unfold Stage.runGroup at h
  obtain ⟨keyed, hkeyed, h⟩ := Fallible.exists_of_bind h
  obtain ⟨key, hkey, hrow⟩ := Fallible.exists_of_mapM h hd
  obtain ⟨y, hy, rfl⟩ := List.mem_map.mp (mem_of_mem_firsts hkey)
  obtain ⟨x, hx, hxy⟩ := Fallible.exists_of_mapM hkeyed hy
  obtain ⟨v, hv, hxy⟩ := Fallible.exists_of_bind hxy
  obtain ⟨fields, -, hrow⟩ := Fallible.exists_of_bind hrow
  cases hxy
  cases hrow
  exact ⟨x, hx, v, hv, rfl⟩

/-- A lookup sees the other collection only through what belongs to its documents. -/
theorem Stage.runLookup_congr {foreign foreign' : List Doc} {localField foreignField as_ : String}
    {docs : List Doc} (h : ∀ d ∈ docs, joined foreign localField foreignField d =
      joined foreign' localField foreignField d) :
    runLookup foreign localField foreignField as_ docs =
      runLookup foreign' localField foreignField as_ docs := by
  unfold runLookup
  apply List.map_congr_left
  intro d hd
  rw [h d hd]

end DocStore

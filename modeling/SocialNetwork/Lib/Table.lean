import Mathlib.Data.List.Nodup
import Mathlib.Tactic.Basic

/-!
# Tables of a relational store

A table is a list of rows with distinct primary keys. Rows are only added, all rows of one
statement or none, and a key that is taken is an error. `join` is the inner join of two lists of
rows; joining through a key neither drops nor repeats a row (`count_join`).
-/

namespace Relational

/-- A table: its rows have distinct keys. -/
structure Table (ρ κ : Type) (key : ρ → κ) where
  rows : List ρ
  nodup : (rows.map key).Nodup

namespace Table

variable {ρ κ : Type} {key : ρ → κ}

def empty : Table ρ κ key := ⟨[], List.nodup_nil⟩

/-- The table with some rows added. -/
def add (t : Table ρ κ key) (new : List ρ) (h : ((t.rows ++ new).map key).Nodup) :
    Table ρ κ key := ⟨t.rows ++ new, h⟩

@[simp] theorem add_rows (t : Table ρ κ key) (new : List ρ)
    (h : ((t.rows ++ new).map key).Nodup) : (t.add new h).rows = t.rows ++ new := rfl

/-- A key identifies its row. -/
theorem eq_of_key (t : Table ρ κ key) {x y : ρ} (hx : x ∈ t.rows) (hy : y ∈ t.rows)
    (h : key x = key y) : x = y := List.inj_on_of_nodup_map t.nodup hx hy h

theorem nodup_rows (t : Table ρ κ key) : t.rows.Nodup := List.Nodup.of_map key t.nodup

/-- The keys of added rows were free. -/
theorem key_notMem_of_add {rows new : List ρ} (h : ((rows ++ new).map key).Nodup) {x : ρ}
    (hx : x ∈ new) : key x ∉ rows.map key := by
  intro hmem
  rw [List.map_append, List.nodup_append] at h
  exact h.2.2 _ hmem _ (List.mem_map_of_mem hx) rfl

/-- One row can be added just if its key is free. -/
theorem nodup_add_iff (t : Table ρ κ key) (row : ρ) :
    ((t.rows ++ [row]).map key).Nodup ↔ key row ∉ t.rows.map key := by
  constructor
  · intro h
    exact key_notMem_of_add h (List.mem_singleton_self row)
  · intro h
    rw [List.map_append, List.map_singleton, ← List.concat_eq_append]
    exact t.nodup.concat h

/-- A key has at most one row. -/
theorem length_filter_key_le [DecidableEq κ] (t : Table ρ κ key) (k : κ) :
    (t.rows.filter fun row => decide (key row = k)).length ≤ 1 := by
  have hcount : (t.rows.map key).count k ≤ 1 := List.nodup_iff_count_le_one.mp t.nodup k
  rw [List.count_eq_countP, List.countP_map, List.countP_eq_length_filter] at hcount
  exact hcount

end Table

/-! ## Joins -/

variable {ρ σ : Type}

/-- The inner join. -/
def join (on : ρ → σ → Bool) (xs : List ρ) (ys : List σ) : List (ρ × σ) :=
  xs.flatMap fun x => (ys.filter (on x)).map fun y => (x, y)

theorem mem_join {on : ρ → σ → Bool} {xs : List ρ} {ys : List σ} {x : ρ} {y : σ} :
    (x, y) ∈ join on xs ys ↔ x ∈ xs ∧ y ∈ ys ∧ on x y = true := by
  simp only [join, List.mem_flatMap, List.mem_map, List.mem_filter, Prod.mk.injEq]
  constructor
  · rintro ⟨x', hx', y', ⟨hy', hon⟩, rfl, rfl⟩
    exact ⟨hx', hy', hon⟩
  · rintro ⟨hx, hy, hon⟩
    exact ⟨x, hx, y, ⟨hy, hon⟩, rfl, rfl⟩

/-- How often a row of the left side comes out of a join. -/
theorem count_join [DecidableEq ρ] (on : ρ → σ → Bool) (xs : List ρ) (ys : List σ) (x : ρ) :
    ((join on xs ys).map Prod.fst).count x = xs.count x * (ys.filter (on x)).length := by
  induction xs with
  | nil => simp [join]
  | cons x' xs ih =>
    have hhead : (((ys.filter (on x')).map fun y => (x', y)).map Prod.fst).count x =
        if x' = x then (ys.filter (on x)).length else 0 := by
      rw [List.map_map]
      by_cases h : x' = x
      · subst h
        rw [if_pos rfl]
        have hconst : (Prod.fst ∘ fun y : σ => (x', y)) = Function.const σ x' := rfl
        rw [hconst, List.map_const, List.count_replicate_self]
      · rw [if_neg h, List.count_eq_zero]
        intro hmem
        obtain ⟨y, -, hy⟩ := List.mem_map.mp hmem
        exact h hy
    rw [join, List.flatMap_cons, List.map_append, List.count_append, hhead, List.count_cons]
    have htail := ih
    rw [join] at htail
    rw [htail]
    by_cases h : x' = x
    · subst h
      simp only [if_true, beq_self_eq_true]
      rw [Nat.add_mul, Nat.one_mul, Nat.add_comm]
    · simp [h]

/-- The left join: a row without a partner is joined to none. -/
def leftJoin (on : ρ → σ → Bool) (xs : List ρ) (ys : List σ) : List (ρ × Option σ) :=
  xs.flatMap fun x =>
    match ys.filter (on x) with
    | [] => [(x, none)]
    | matched => matched.map fun y => (x, some y)

/-- When no row has two partners, each row is joined once, to its partner where it has one. -/
theorem leftJoin_eq_map {on : ρ → σ → Bool} {xs : List ρ} {ys : List σ}
    (hone : ∀ x ∈ xs, (ys.filter (on x)).length ≤ 1) :
    leftJoin on xs ys = xs.map fun x => (x, ys.find? (on x)) := by
  unfold leftJoin
  induction xs with
  | nil => rfl
  | cons x xs ih =>
    rw [List.flatMap_cons, List.map_cons, ih fun z hz => hone z (List.mem_cons_of_mem x hz)]
    have hx := hone x List.mem_cons_self
    have hfind : ys.find? (on x) = (ys.filter (on x)).head? := List.head?_filter.symm
    rw [hfind]
    match hm : ys.filter (on x) with
    | [] => rfl
    | [y] => rfl
    | y :: z :: rest =>
      rw [hm] at hx
      simp only [List.length_cons] at hx
      omega

end Relational

import Mathlib.Algebra.Order.Ring.Int
import Mathlib.Data.List.Forall2
import Mathlib.Data.List.Nodup
import Mathlib.Data.List.Perm.Subperm
import Mathlib.Tactic.Basic

/-!
# Lists that are updated

Facts about lists that an element is taken out of or put into, and about `List.modify` and
`List.countP`, for queues and logs.
-/

namespace Lists

variable {α β : Type}

/-- A projection that the update keeps is the same everywhere. -/
theorem map_modify {f : α → α} {g : α → β} (hf : ∀ x, g (f x) = g x) (i : Nat) (l : List α) :
    (l.modify i f).map g = l.map g := by
  apply List.ext_getElem?
  intro j
  rw [List.getElem?_map, List.getElem?_map, List.getElem?_modify]
  cases l[j]? with
  | none => rfl
  | some x =>
    split_ifs
    · exact congrArg some (hf x)
    · rfl

/-- An element of an updated list is an old one or the updated one. -/
theorem mem_modify {f : α → α} {i : Nat} {l : List α} {x : α} (h : x ∈ l.modify i f) :
    x ∈ l ∨ ∃ y, l[i]? = some y ∧ x = f y := by
  obtain ⟨j, hj⟩ := List.mem_iff_getElem?.mp h
  rw [List.getElem?_modify] at hj
  obtain ⟨y, hy, hxy⟩ := Option.map_eq_some_iff.mp hj
  by_cases hij : i = j
  · rw [if_pos hij] at hxy
    exact .inr ⟨y, hij ▸ hy, hxy.symm⟩
  · rw [if_neg hij] at hxy
    exact .inl (hxy ▸ List.mem_of_getElem? hy)

theorem mem_middle {l₁ l₂ : List α} {x y : α} : y ∈ l₁ ++ x :: l₂ ↔ y = x ∨ y ∈ l₁ ++ l₂ := by
  rw [List.perm_middle.mem_iff, List.mem_cons]

/-- A sum of numbers may be taken as natural numbers. -/
theorem sum_map_natCast (f : α → Nat) (l : List α) :
    (l.map fun x => (f x : Int)).sum = ((l.map f).sum : Nat) := by
  induction l with
  | nil => rfl
  | cons x l ih =>
    simp only [List.map_cons, List.sum_cons, ih]
    omega

/-- In a list of at most one element all elements are the same. -/
theorem eq_of_length_le_one {l : List α} (h : l.length ≤ 1) {x y : α} (hx : x ∈ l)
    (hy : y ∈ l) : x = y := by
  obtain ⟨i, hi, rfl⟩ := List.mem_iff_getElem.mp hx
  obtain ⟨j, hj, rfl⟩ := List.mem_iff_getElem.mp hy
  have hij : i = j := by omega
  subst hij
  rfl

/-- In a list of at most two elements there is nothing besides two different ones. -/
theorem eq_or_eq_of_length_le_two [DecidableEq α] {l : List α} (h : l.length ≤ 2) {x y z : α}
    (hx : x ∈ l) (hy : y ∈ l) (hne : x ≠ y) (hz : z ∈ l) : z = x ∨ z = y := by
  by_contra hother
  rw [not_or] at hother
  have hnodup : [x, y, z].Nodup := by
    simp [hne, Ne.symm hother.1, Ne.symm hother.2]
  have hsub : [x, y, z] ⊆ l := by
    simp [hx, hy, hz]
  have hlength := (List.subperm_of_subset hnodup hsub).length_le
  rw [List.length_cons, List.length_cons, List.length_singleton] at hlength
  omega

/-- What is looked up for different keys, one after the other, is what has one of the keys. -/
theorem perm_flatMap_filter {κ : Type} [DecidableEq κ] (f : α → κ) (l : List α) {ks : List κ}
    (h : ks.Nodup) : (ks.flatMap fun k => l.filter fun x => f x = k).Perm
      (l.filter fun x => f x ∈ ks) := by
  induction ks with
  | nil =>
    rw [List.flatMap_nil, List.filter_eq_nil_iff.mpr fun x _ => by simp]
  | cons k ks ih =>
    rw [List.nodup_cons] at h
    -- the elements of the first key, and those of the other keys, are the two halves of the list
    have hk : (l.filter fun x => f x ∈ k :: ks).filter (fun x => f x = k) =
        l.filter fun x => f x = k := by
      rw [List.filter_filter]
      apply List.filter_congr
      intro x _
      by_cases heq : f x = k <;> simp [heq]
    have hks : (l.filter fun x => f x ∈ k :: ks).filter (fun x => !decide (f x = k)) =
        l.filter fun x => f x ∈ ks := by
      rw [List.filter_filter]
      apply List.filter_congr
      intro x _
      by_cases heq : f x = k
      · simp [heq, h.1]
      · simp [heq]
    have hsplit := List.filter_append_perm (fun x => decide (f x = k))
      (l.filter fun x => f x ∈ k :: ks)
    rw [hk, hks] at hsplit
    rw [List.flatMap_cons]
    exact ((ih h.2).append_left _).trans hsplit

/-! ## Counting -/

/-- An update takes the old element out of the count and puts the new one in. -/
theorem countP_set {p : α → Bool} {l : List α} {i : Nat} {x : α} (h : l[i]? = some x) (y : α) :
    (l.set i y).countP p + (if p x then 1 else 0) = l.countP p + if p y then 1 else 0 := by
  induction l generalizing i with
  | nil => cases h
  | cons z l ih =>
    cases i with
    | zero =>
      cases h
      rw [List.set_cons_zero, List.countP_cons, List.countP_cons]
      omega
    | succ i =>
      rw [List.set_cons_succ, List.countP_cons, List.countP_cons]
      have hrest := ih (i := i) h
      omega

theorem countP_eraseIdx {p : α → Bool} {l : List α} {i : Nat} {x : α} (h : l[i]? = some x) :
    (l.eraseIdx i).countP p + (if p x then 1 else 0) = l.countP p := by
  induction l generalizing i with
  | nil => cases h
  | cons z l ih =>
    cases i with
    | zero =>
      cases h
      rw [List.eraseIdx_cons_zero, List.countP_cons]
    | succ i =>
      rw [List.eraseIdx_cons_succ, List.countP_cons, List.countP_cons]
      have hrest := ih (i := i) h
      omega

/-- What is counted at most once is one element. -/
theorem eq_of_countP_le_one {p : α → Bool} {l : List α} (h : l.countP p ≤ 1) {x y : α}
    (hx : x ∈ l) (hy : y ∈ l) (hpx : p x = true) (hpy : p y = true) : x = y := by
  rw [List.countP_eq_length_filter] at h
  exact eq_of_length_le_one h (List.mem_filter.mpr ⟨hx, hpx⟩) (List.mem_filter.mpr ⟨hy, hpy⟩)

/-! ## Two lists position by position -/

section Forall₂

variable {R : α → β → Prop} {xs : List α} {ys : List β} {i : Nat}

theorem exists_of_forall₂ (h : List.Forall₂ R xs ys) {y : β} (hy : ys[i]? = some y) :
    ∃ x, xs[i]? = some x ∧ R x y := by
  obtain ⟨hlength, hall⟩ := List.forall₂_iff_get.mp h
  obtain ⟨hi, rfl⟩ := List.getElem?_eq_some_iff.mp hy
  exact ⟨xs[i], List.getElem?_eq_getElem (hlength ▸ hi), hall i (hlength ▸ hi) hi⟩

theorem forall₂_concat (h : List.Forall₂ R xs ys) {x : α} {y : β} (hxy : R x y) :
    List.Forall₂ R (xs ++ [x]) (ys ++ [y]) :=
  List.rel_append h (.cons hxy .nil)

theorem forall₂_set (h : List.Forall₂ R xs ys) {y : β} (hy : ∀ x, xs[i]? = some x → R x y) :
    List.Forall₂ R xs (ys.set i y) := by
  induction h generalizing i with
  | nil => exact .nil
  | cons hhead htail ih =>
    cases i with
    | zero => exact .cons (hy _ rfl) htail
    | succ i => exact .cons hhead (ih hy)

theorem forall₂_eraseIdx (h : List.Forall₂ R xs ys) :
    List.Forall₂ R (xs.eraseIdx i) (ys.eraseIdx i) := by
  induction h generalizing i with
  | nil => exact .nil
  | cons hhead htail ih =>
    cases i with
    | zero => exact htail
    | succ i => exact .cons hhead ih

end Forall₂

end Lists

import Mathlib.Data.List.Basic
import Mathlib.Logic.Function.Basic
import Mathlib.Tactic.Basic

/-!
# Registers

A store keeps a value under some of its names, and every name is given out at most once. `Evolves`
says how two states of the store differ when its values have been changed, removed and added:
nothing comes back under an old name. `foldl_getD` says what optional writes leave in a field.
-/

namespace Registers

variable {ι α β : Type}

/-- What is kept after has been kept before, changed as `R` allows, or has a name that had not been
given out. -/
def Evolves (R : α → α → Prop) (used : List ι) (m m' : ι → Option α) : Prop :=
  ∀ i y, m' i = some y → (∃ x, m i = some x ∧ R x y) ∨ i ∉ used

section Evolves

variable {R : α → α → Prop} {used used' : List ι} {m m' m'' : ι → Option α}

theorem Evolves.refl (hR : ∀ x, R x x) (used : List ι) (m : ι → Option α) : Evolves R used m m :=
  fun _ y hy => .inl ⟨y, hy, hR y⟩

/-- One change after another. -/
theorem Evolves.trans (hR : ∀ x y z, R x y → R y z → R x z) (hused : ∀ i ∈ used, i ∈ used')
    (h : Evolves R used m m') (h' : Evolves R used' m' m'') : Evolves R used m m'' := by
  intro i z hz
  rcases h' i z hz with ⟨y, hy, hyz⟩ | hnew
  · rcases h i y hy with ⟨x, hx, hxy⟩ | hnew
    · exact .inl ⟨x, hx, hR x y z hxy hyz⟩
    · exact .inr hnew
  · exact .inr fun hi => hnew (hused i hi)

/-- What has been removed does not come back. -/
theorem Evolves.eq_none (h : Evolves R used m m') {i : ι} (hi : i ∈ used) (hnone : m i = none) :
    m' i = none := by
  cases hy : m' i with
  | none => rfl
  | some y =>
    rcases h i y hy with ⟨x, hx, -⟩ | hnew
    · rw [hnone] at hx
      cases hx
    · exact absurd hi hnew

/-- What is still kept has been changed as `R` allows. -/
theorem Evolves.rel (h : Evolves R used m m') {i : ι} (hi : i ∈ used) {x y : α} (hx : m i = some x)
    (hy : m' i = some y) : R x y := by
  rcases h i y hy with ⟨x', hx', hR⟩ | hnew
  · rw [hx] at hx'
    cases hx'
    exact hR
  · exact absurd hi hnew

variable [DecidableEq ι]

/-- A new name is taken. -/
theorem Evolves.insert (hR : ∀ x, R x x) {i : ι} (hi : i ∉ used) (x : α) :
    Evolves R used m (Function.update m i (some x)) := by
  intro j y hy
  by_cases hj : j = i
  · exact .inr (hj ▸ hi)
  · rw [Function.update_of_ne hj] at hy
    exact .inl ⟨y, hy, hR y⟩

/-- One value changes. -/
theorem Evolves.update (hR : ∀ x, R x x) {i : ι} {x x' : α} (hx : m i = some x) (hx' : R x x') :
    Evolves R used m (Function.update m i (some x')) := by
  intro j y hy
  by_cases hj : j = i
  · subst hj
    rw [Function.update_self] at hy
    cases hy
    exact .inl ⟨x, hx, hx'⟩
  · rw [Function.update_of_ne hj] at hy
    exact .inl ⟨y, hy, hR y⟩

theorem Evolves.remove (hR : ∀ x, R x x) (i : ι) : Evolves R used m (Function.update m i none) := by
  intro j y hy
  by_cases hj : j = i
  · subst hj
    rw [Function.update_self] at hy
    cases hy
  · rw [Function.update_of_ne hj] at hy
    exact .inl ⟨y, hy, hR y⟩

end Evolves

/-! ## Optional writes -/

/-- After writes that may leave the field alone, it has what the last one of the others wrote. -/
theorem foldl_getD (f : β → Option α) (a : α) (bs : List β) :
    bs.foldl (fun a b => (f b).getD a) a = ((bs.filterMap f).getLast?).getD a := by
  induction bs generalizing a with
  | nil => rfl
  | cons b bs ih =>
    rw [List.foldl_cons, ih, List.filterMap_cons]
    cases f b with
    | none => rfl
    | some x =>
      rw [Option.getD_some]
      cases bs.filterMap f with
      | nil => rfl
      | cons y ys =>
        rw [List.getLast?_cons_cons, List.getLast?_eq_some_getLast (List.cons_ne_nil y ys),
          Option.getD_some, Option.getD_some]

/-- A field of a record that is changed step by step is changed as its own values are. -/
theorem foldl_field {γ : Type} (field : γ → α) (step : γ → β → γ) (f : β → Option α)
    (h : ∀ c b, field (step c b) = (f b).getD (field c)) (c : γ) (bs : List β) :
    field (bs.foldl step c) = ((bs.filterMap f).getLast?).getD (field c) := by
  rw [← foldl_getD]
  induction bs generalizing c with
  | nil => rfl
  | cons b bs ih => rw [List.foldl_cons, List.foldl_cons, ih, h]

end Registers

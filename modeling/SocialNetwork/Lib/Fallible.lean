import Mathlib.Data.List.Basic
import Mathlib.Tactic.Basic

/-!
# Computations that may fail

Sequences and loops of `Except`: where their results and their exceptions come from.
-/

namespace Fallible

variable {ε α β : Type}

instance decidableEqExcept [DecidableEq ε] [DecidableEq α] : DecidableEq (Except ε α)
  | .ok a, .ok b => decidable_of_iff (a = b) ⟨congrArg Except.ok, Except.ok.inj⟩
  | .error e, .error e' => decidable_of_iff (e = e') ⟨congrArg Except.error, Except.error.inj⟩
  | .ok _, .error _ => isFalse nofun
  | .error _, .ok _ => isFalse nofun

/-! ## Sequences -/

/-- A computation that succeeds goes through both of its parts. -/
theorem exists_of_bind {x : Except ε α} {f : α → Except ε β} {r : β}
    (h : x >>= f = .ok r) : ∃ a, x = .ok a ∧ f a = .ok r := by
  cases x with
  | error e => cases h
  | ok a => exact ⟨a, rfl, h⟩

/-! ## Loops -/

/-- The result of a loop that may fail comes from the elements. -/
theorem exists_of_mapM {f : α → Except ε β} {l : List α} {out : List β}
    (h : l.mapM f = .ok out) {y : β} (hy : y ∈ out) : ∃ x ∈ l, f x = .ok y := by
  induction l generalizing out with
  | nil =>
    rw [List.mapM_nil] at h
    cases h
    cases hy
  | cons x l ih =>
    rw [List.mapM_cons] at h
    obtain ⟨y', hy', h⟩ := exists_of_bind h
    obtain ⟨ys, hys, h⟩ := exists_of_bind h
    cases h
    rcases List.mem_cons.mp hy with rfl | hy
    · exact ⟨x, List.mem_cons_self .., hy'⟩
    · obtain ⟨x', hx', hf⟩ := ih hys hy
      exact ⟨x', List.mem_cons_of_mem _ hx', hf⟩

/-- Each result of a loop is that of its element. -/
theorem forall₂_of_mapM {f : α → Except ε β} {l : List α} {out : List β} (h : l.mapM f = .ok out) :
    List.Forall₂ (fun x y => f x = .ok y) l out := by
  induction l generalizing out with
  | nil =>
    rw [List.mapM_nil] at h
    cases h
    exact .nil
  | cons x l ih =>
    rw [List.mapM_cons] at h
    obtain ⟨y, hy, h⟩ := exists_of_bind h
    obtain ⟨ys, hys, h⟩ := exists_of_bind h
    cases h
    exact .cons hy (ih hys)

theorem length_of_mapM {f : α → Except ε β} {l : List α} {out : List β}
    (h : l.mapM f = .ok out) : out.length = l.length := by
  induction l generalizing out with
  | nil =>
    rw [List.mapM_nil] at h
    cases h
    rfl
  | cons x l ih =>
    rw [List.mapM_cons] at h
    obtain ⟨y, -, h⟩ := exists_of_bind h
    obtain ⟨ys, hys, h⟩ := exists_of_bind h
    cases h
    rw [List.length_cons, List.length_cons, ih hys]

/-- A loop succeeds just if it does on every element. -/
theorem mapM_ok_iff {f : α → Except ε β} {l : List α} :
    (∃ out, l.mapM f = .ok out) ↔ ∀ x ∈ l, ∃ y, f x = .ok y := by
  induction l with
  | nil => exact iff_of_true ⟨[], List.mapM_nil⟩ fun x hx => nomatch hx
  | cons x l ih =>
    rw [List.forall_mem_cons, ← ih]
    constructor
    · rintro ⟨out, h⟩
      rw [List.mapM_cons] at h
      obtain ⟨y, hy, h⟩ := exists_of_bind h
      obtain ⟨ys, hys, h⟩ := exists_of_bind h
      exact ⟨⟨y, hy⟩, ys, hys⟩
    · rintro ⟨⟨y, hy⟩, ys, hys⟩
      refine ⟨y :: ys, ?_⟩
      rw [List.mapM_cons, hy, hys]
      rfl

/-- A loop that succeeds on every element maps them. -/
theorem mapM_eq_ok {f : α → Except ε β} {g : α → β} {l : List α} (h : ∀ x ∈ l, f x = .ok (g x)) :
    l.mapM f = .ok (l.map g) := by
  induction l with
  | nil => rfl
  | cons x l ih =>
    rw [List.forall_mem_cons] at h
    rw [List.mapM_cons, h.1, ih h.2]
    rfl

/-- A loop that undoes a change of every element. -/
theorem mapM_restore {f : β → Except ε α} {g : α → β} {l : List α} (h : ∀ x ∈ l, f (g x) = .ok x) :
    (l.map g).mapM f = .ok l := by
  induction l with
  | nil => rfl
  | cons x l ih =>
    rw [List.forall_mem_cons] at h
    rw [List.map_cons, List.mapM_cons, h.1, ih h.2]
    rfl

/-- The exception of a loop is that of an element. -/
theorem exists_of_mapM_error {f : α → Except ε β} {l : List α} {e : ε}
    (h : l.mapM f = .error e) : ∃ x ∈ l, f x = .error e := by
  induction l with
  | nil =>
    rw [List.mapM_nil] at h
    cases h
  | cons x l ih =>
    rw [List.mapM_cons] at h
    cases hx : f x with
    | error e' =>
      rw [hx] at h
      cases h
      exact ⟨x, List.mem_cons_self, hx⟩
    | ok y =>
      rw [hx] at h
      cases hl : l.mapM f with
      | error e' =>
        rw [hl] at h
        cases h
        obtain ⟨z, hz, hfz⟩ := ih hl
        exact ⟨z, List.mem_cons_of_mem _ hz, hfz⟩
      | ok ys =>
        rw [hl] at h
        cases h

/-- A loop that looks at its elements through a view. -/
theorem mapM_eq_of_view {γ : Type} {f : α → Except ε β} {view : α → γ}
    (hf : ∀ x y, view x = view y → f x = f y) {l l' : List α} (h : l.map view = l'.map view) :
    l.mapM f = l'.mapM f := by
  induction l generalizing l' with
  | nil =>
    rw [List.map_nil] at h
    rw [List.map_eq_nil_iff.mp h.symm]
  | cons x l ih =>
    cases l' with
    | nil => cases h
    | cons y l' =>
      obtain ⟨hxy, hl⟩ := List.cons.inj h
      rw [List.mapM_cons, List.mapM_cons, hf x y hxy, ih hl]

end Fallible

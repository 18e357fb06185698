import Mathlib.Data.List.Basic
import Mathlib.Data.List.Induction
import Mathlib.Data.List.Nodup
import Mathlib.Tactic.Basic

/-!
# Sets kept by additions and removals

A set is kept as a list without duplicates. Elements are added, at the end, and removed, one mark
after the other. `mem_replay_iff` says what is in the set after any marks: what the last mark about
it has added.
-/

namespace Marks

/-- An element is added or removed. -/
inductive Mark (α : Type)
  | add (a : α)
  | remove (a : α)
deriving DecidableEq, Repr

variable {α : Type}

/-- The element that a mark is about. -/
def Mark.about : Mark α → α
  | add a | remove a => a

@[simp] theorem Mark.about_add (a : α) : (add a).about = a := rfl

@[simp] theorem Mark.about_remove (a : α) : (remove a).about = a := rfl

variable [DecidableEq α]

/-- What one mark does to the marked. -/
def Mark.apply (s : List α) : Mark α → List α
  | add a => if a ∈ s then s else s ++ [a]
  | remove a => s.filter fun b => b ≠ a

/-- The set after the marks. -/
def replay (ms : List (Mark α)) : List α := ms.foldl Mark.apply []

/-- The last mark about the element adds it. -/
def Marked (a : α) (ms : List (Mark α)) : Prop :=
  (ms.filter fun m => m.about = a).getLast? = some (.add a)

instance (a : α) (ms : List (Mark α)) : Decidable (Marked a ms) :=
  inferInstanceAs (Decidable (_ = _))

theorem replay_append (ms : List (Mark α)) (m : Mark α) : replay (ms ++ [m]) = m.apply (replay ms) :=
  List.foldl_append

/-! ## One mark -/

/-- A mark decides about its own element only. -/
theorem Mark.mem_apply {s : List α} {m : Mark α} {a : α} :
    a ∈ m.apply s ↔ if m.about = a then m = .add a else a ∈ s := by
  cases m with
  | add b =>
    rw [about_add]
    by_cases hb : b = a
    · rw [if_pos hb, hb, apply]
      refine iff_of_true ?_ rfl
      split_ifs with hmem
      · exact hmem
      · exact List.mem_append_right _ List.mem_cons_self
    · rw [if_neg hb, apply]
      split_ifs with hmem
      · exact Iff.rfl
      · rw [List.mem_append, List.mem_singleton]
        exact or_iff_left fun heq => hb heq.symm
  | remove b =>
    rw [about_remove, apply, List.mem_filter, decide_eq_true_eq]
    by_cases hb : b = a
    · rw [if_pos hb]
      exact iff_of_false (fun h => h.2 hb.symm) nofun
    · rw [if_neg hb]
      exact and_iff_left fun heq => hb heq.symm

/-- No element is marked twice. -/
theorem Mark.nodup_apply {s : List α} (h : s.Nodup) (m : Mark α) : (m.apply s).Nodup := by
  cases m with
  | add a =>
    rw [apply]
    split_ifs with hmem
    · exact h
    · rw [← List.concat_eq_append]
      exact h.concat hmem
  | remove a => exact h.filter _

/-- The last mark of an element decides. -/
theorem marked_append {a : α} {ms : List (Mark α)} {m : Mark α} :
    Marked a (ms ++ [m]) ↔ if m.about = a then m = .add a else Marked a ms := by
  unfold Marked
  rw [List.filter_append, List.filter_singleton]
  by_cases hm : m.about = a
  · simp [hm]
  · simp [hm]

/-! ## All marks -/

theorem nodup_replay (ms : List (Mark α)) : (replay ms).Nodup := by
  induction ms using List.reverseRecOn with
  | nil => exact List.nodup_nil
  | append_singleton ms m ih =>
    rw [replay_append]
    exact m.nodup_apply ih

/-- **What is in the set.** -/
theorem mem_replay_iff {a : α} {ms : List (Mark α)} : a ∈ replay ms ↔ Marked a ms := by
  induction ms using List.reverseRecOn with
  | nil => exact iff_of_false List.not_mem_nil nofun
  | append_singleton ms m ih => rw [replay_append, Mark.mem_apply, marked_append, ih]

/-- A mark that repeats what is the case changes nothing. -/
theorem Mark.apply_eq_self {s : List α} {m : Mark α} (h : m = .add m.about ↔ m.about ∈ s) :
    m.apply s = s := by
  cases m with
  | add a => exact if_pos (h.mp rfl)
  | remove a =>
    have hnot : a ∉ s := fun hmem => nomatch h.mpr hmem
    apply List.filter_eq_self.mpr
    intro b hb
    rw [decide_eq_true_eq]
    exact fun heq => hnot (heq ▸ hb)

end Marks

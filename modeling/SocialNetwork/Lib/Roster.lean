import SocialNetwork.Lib.Lists
import Mathlib.Data.List.Induction

/-!
# Who is in flight

The actions of a run say which requests are in flight and which of them each answer is given to. A
request is known by the number of the action with which it arrived, so that two requests that ask for
the same are still two.
-/

/-- What an action does to the requests in flight. -/
inductive Move
  /-- A request arrives, behind the others. -/
  | arrive
  /-- The `i`-th request in flight is answered. -/
  | leave (i : Nat)
  | stay
deriving DecidableEq

/-- The requests in flight and those that have been answered, in the order of the answers, each by
the number of the action with which it arrived. -/
structure Roster where
  actions : Nat
  flying : List Nat
  answered : List Nat

namespace Roster

def next (b : Roster) : Move → Roster
  | .arrive => ⟨b.actions + 1, b.flying ++ [b.actions], b.answered⟩
  | .leave i => ⟨b.actions + 1, b.flying.eraseIdx i, b.answered ++ b.flying[i]?.toList⟩
  | .stay => { b with actions := b.actions + 1 }

variable {α : Type} {move : α → Move}

/-- The roster after the actions. -/
def of (move : α → Move) (as : List α) : Roster := as.foldl (fun b a => b.next (move a)) ⟨0, [], []⟩

theorem of_concat (as : List α) (a : α) : of move (as ++ [a]) = (of move as).next (move a) := by
  rw [of, List.foldl_append]
  rfl

theorem actions_of (as : List α) : (of move as).actions = as.length := by
  induction as using List.reverseRecOn with
  | nil => rfl
  | append_singleton as a ih =>
    rw [of_concat, List.length_append, ← ih]
    cases move a <;> rfl

/-- Every request is entered once, and none before it has arrived. -/
structure Ordered (b : Roster) : Prop where
  nodup : (b.flying ++ b.answered).Nodup
  lt : ∀ n ∈ b.flying ++ b.answered, n < b.actions

/-- Who is answered has been in flight. -/
theorem leave_perm {b : Roster} {i : Nat} (hi : i < b.flying.length) :
    ((b.next (.leave i)).flying ++ (b.next (.leave i)).answered).Perm (b.flying ++ b.answered) := by
  have hperm : (b.flying[i] :: b.flying.eraseIdx i).Perm b.flying := List.getElem_cons_eraseIdx_perm hi
  have hone : b.flying[i]?.toList = [b.flying[i]] := by
    rw [List.getElem?_eq_getElem hi]
    rfl
  show (b.flying.eraseIdx i ++ (b.answered ++ b.flying[i]?.toList)).Perm _
  rw [hone, ← List.append_assoc]
  refine List.Perm.trans ?_ (hperm.append_right b.answered)
  exact List.perm_append_comm

theorem Ordered.next {b : Roster} (h : b.Ordered) (m : Move) : (b.next m).Ordered := by
  cases m with
  | arrive =>
    have hperm : ((b.flying ++ [b.actions]) ++ b.answered).Perm
        (b.actions :: (b.flying ++ b.answered)) := by
      rw [List.append_assoc, List.singleton_append]
      exact List.perm_middle
    refine ⟨hperm.nodup_iff.mpr (List.nodup_cons.mpr ⟨fun hmem => ?_, h.nodup⟩), fun n hn => ?_⟩
    · exact absurd (h.lt _ hmem) (Nat.lt_irrefl _)
    · rcases List.mem_cons.mp (hperm.mem_iff.mp hn) with rfl | hn
      · exact Nat.lt_succ_self _
      · exact Nat.lt_succ_of_lt (h.lt n hn)
  | leave i =>
    by_cases hi : i < b.flying.length
    · have hperm := leave_perm hi
      exact ⟨hperm.nodup_iff.mpr h.nodup,
        fun n hn => Nat.lt_succ_of_lt (h.lt n (hperm.mem_iff.mp hn))⟩
    · have hsame : b.next (.leave i) = { b with actions := b.actions + 1 } := by
        show Roster.mk _ _ _ = _
        rw [List.eraseIdx_of_length_le (Nat.le_of_not_lt hi),
          List.getElem?_eq_none (Nat.le_of_not_lt hi), Option.toList_none, List.append_nil]
      rw [hsame]
      exact ⟨h.nodup, fun n hn => Nat.lt_succ_of_lt (h.lt n hn)⟩
  | stay => exact ⟨h.nodup, fun n hn => Nat.lt_succ_of_lt (h.lt n hn)⟩

theorem ordered_of (as : List α) : (of move as).Ordered := by
  induction as using List.reverseRecOn with
  | nil => exact ⟨List.nodup_nil, fun n hn => absurd hn List.not_mem_nil⟩
  | append_singleton as a ih =>
    rw [of_concat]
    exact ih.next (move a)

/-- The `k`-th answer is given to the request that arrived with the action `n₀`, and no other answer
is. -/
structure AnswersTo (move : α → Move) (as : List α) (k n₀ : Nat) : Prop where
  answer : (of move as).answered[k]? = some n₀
  once : ∀ k', (of move as).answered[k']? = some n₀ → k' = k

theorem answersTo {as : List α} {k n₀ : Nat} (h : (of move as).answered[k]? = some n₀) :
    AnswersTo move as k n₀ := by
  refine ⟨h, fun k' h' => ?_⟩
  have hordered : (of move as).Ordered := ordered_of as
  have hnodup := (List.nodup_append.mp hordered.nodup).2.1
  obtain ⟨hk, -⟩ := List.getElem?_eq_some_iff.mp h
  exact ((List.getElem?_inj hk hnodup).mp (h.trans h'.symm)).symm

end Roster

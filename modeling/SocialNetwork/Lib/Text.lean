import Mathlib.Data.List.Basic
import Mathlib.Tactic.Basic

/-!
# Texts put together with a separator

When two texts are put together with a separator, the parts can be told apart if the second one
never contains the separator's first character (`append_sep_inj`). Otherwise one of the first parts
contains it (`sep_mem_of_ne`). The decimal digits of a number contain no separator.
-/

namespace Text

variable {α : Type} {c : α} {a a' b b' s : List α}

/-- Of two different first parts the longer one contains the separator. -/
theorem sep_mem_of_ne (h : a ++ c :: b = a' ++ c :: b') (hne : a ≠ a') : c ∈ a ∨ c ∈ a' := by
  rcases List.append_eq_append_iff.mp h with ⟨x, ha', hx⟩ | ⟨x, ha, hx⟩
  · cases x with
    | nil => exact absurd (by rw [ha', List.append_nil]) hne
    | cons y x =>
      right
      rw [ha', (List.cons.inj hx).1]
      exact List.mem_append_right _ List.mem_cons_self
  · cases x with
    | nil => exact absurd (by rw [ha, List.append_nil]) hne
    | cons y x =>
      left
      rw [ha, (List.cons.inj hx).1]
      exact List.mem_append_right _ List.mem_cons_self

/-- The separator stands where the second part begins, if that part does not contain it. -/
theorem append_sep_inj (hb : c ∉ b) (hb' : c ∉ b') (h : a ++ c :: b = a' ++ c :: b') :
    a = a' ∧ b = b' := by
  have hreverse := congrArg List.reverse h
  simp only [List.reverse_append, List.reverse_cons, List.append_assoc, List.singleton_append]
    at hreverse
  by_cases heq : b.reverse = b'.reverse
  · have hb := List.reverse_injective heq
    rw [hb] at h
    exact ⟨List.append_cancel_right h, hb⟩
  · rcases sep_mem_of_ne hreverse heq with hmem | hmem
    · exact absurd (List.mem_reverse.mp hmem) hb
    · exact absurd (List.mem_reverse.mp hmem) hb'

/-- What is neither a digit nor a sign is not in a number. -/
theorem notMem_toString_nat {c : Char} (hc : c.isDigit = false) (n : Nat) :
    c ∉ (toString n).toList := by
  intro hmem
  have hdigits : c ∈ Nat.toDigits 10 n := by
    rw [Nat.toString_eq_repr, Nat.repr_eq_ofList_toDigits, String.toList_ofList] at hmem
    exact hmem
  have hdigit := Nat.isDigit_of_mem_toDigits (by decide) (by decide) hdigits
  rw [hc] at hdigit
  cases hdigit

theorem toString_negSucc (m : Nat) : toString (Int.negSucc m) = "-" ++ toString (m + 1) := rfl

theorem notMem_toString_int {c : Char} (hc : c.isDigit = false) (hsign : c ≠ '-') (n : Int) :
    c ∉ (toString n).toList := by
  cases n with
  | ofNat m => exact notMem_toString_nat hc m
  | negSucc m =>
    intro hmem
    have hcons : c ∈ '-' :: (toString (m + 1)).toList := by
      rw [toString_negSucc, String.toList_append] at hmem
      exact hmem
    rcases List.mem_cons.mp hcons with heq | hdigits
    · exact hsign heq
    · exact notMem_toString_nat hc (m + 1) hdigits

theorem toString_nat_injective {m n : Nat} (h : toString m = toString n) : m = n := by
  have hread : ∀ n : Nat, Nat.ofDigitChars 10 (toString n).toList 0 = n := by
    intro n
    rw [Nat.toString_eq_repr, Nat.toList_repr]
    exact Nat.ofDigitChars_ten_toDigits
  rw [← hread m, h, hread n]

/-- Only a negative number has a sign. -/
theorem toString_negSucc_ne (m n : Nat) : toString (Int.negSucc m) ≠ toString (Int.ofNat n) := by
  intro h
  have hsign : '-' ∈ (toString (Int.negSucc m)).toList := by
    rw [toString_negSucc, String.toList_append]
    exact List.mem_cons_self
  rw [h] at hsign
  exact notMem_toString_nat (by decide) n hsign

theorem toString_int_injective {m n : Int} (h : toString m = toString n) : m = n := by
  cases m with
  | ofNat m =>
    cases n with
    | ofNat n => exact congrArg Int.ofNat (toString_nat_injective h)
    | negSucc n => exact absurd h.symm (toString_negSucc_ne n m)
  | negSucc m =>
    cases n with
    | ofNat n => exact absurd h (toString_negSucc_ne m n)
    | negSucc n =>
      rw [toString_negSucc, toString_negSucc] at h
      have hdigits := toString_nat_injective ((String.append_right_inj "-").mp h)
      rw [Nat.succ.inj hdigits]

end Text

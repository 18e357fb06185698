import Mathlib.Data.List.Induction
import Mathlib.Data.List.Infix
import Mathlib.Tactic.Basic

/-!
# `LIKE` patterns

A pattern is read as a list of tokens: `%` stands for any text, `_` for any character, and a
backslash takes the meaning from the character after it. A pattern that ends with such a backslash
is an error.

`least` is a shortest text that a list of tokens matches (`matches_least`, `length_least_le`). What
is put between two `%` is looked for literally if it has no special character (`matches_plain`);
otherwise its `least` text is matched and does not contain it (`not_infix_least`).
-/

namespace Like

/-! ## Patterns -/

inductive Token
  /-- `%`. -/
  | many
  /-- `_`. -/
  | one
  | lit (c : Char)
deriving DecidableEq, Repr

/-- The characters that do not stand for themselves. -/
def specials : List Char := ['%', '_', '\\']

/-- The token of a character that is not escaped. -/
def token (c : Char) : Token := if c = '%' then .many else if c = '_' then .one else .lit c

/-- The tokens of a pattern; none where it ends with the escape character. -/
def tokens : List Char → Option (List Token)
  | [] => some []
  | c :: cs =>
    if c = '\\' then
      match cs with
      | [] => none
      | d :: cs => (tokens cs).map (.lit d :: ·)
    else (tokens cs).map (token c :: ·)

/-- The text matches the tokens. -/
def matches_ : List Token → List Char → Bool
  | [], text => text.isEmpty
  | .many :: ts, text => text.tails.any (matches_ ts)
  | .one :: ts, _ :: text => matches_ ts text
  | .lit c :: ts, d :: text => c = d && matches_ ts text
  | .one :: _, [] => false
  | .lit _ :: _, [] => false

example : (tokens "a%_\\%".toList).map (fun ts => matches_ ts "abcd%".toList) = some true := by decide

theorem tokens_escape (d : Char) (cs : List Char) :
    tokens ('\\' :: d :: cs) = (tokens cs).map (.lit d :: ·) := rfl

theorem tokens_cons {c : Char} (hc : c ≠ '\\') (cs : List Char) :
    tokens (c :: cs) = (tokens cs).map (token c :: ·) := by
  rw [tokens.eq_def]
  exact if_neg hc

theorem token_plain {c : Char} (hc : c ∉ specials) : token c = .lit c := by
  simp only [specials, List.mem_cons, List.not_mem_nil, or_false, not_or] at hc
  rw [token, if_neg hc.1, if_neg hc.2.1]

/-- A trailing `%` is a token, escaped or not. -/
theorem tokens_isSome (cs : List Char) : (tokens (cs ++ ['%'])).isSome = true := by
  induction cs using List.twoStepInduction with
  | nil => rfl
  | singleton c =>
    by_cases hc : c = '\\'
    · rw [hc]
      rfl
    · rw [List.singleton_append, tokens_cons hc]
      rfl
  | cons_cons c d cs ih ihd =>
    by_cases hc : c = '\\'
    · rw [hc, List.cons_append, List.cons_append, tokens_escape, Option.isSome_map]
      exact ih
    · rw [List.cons_append, tokens_cons hc, Option.isSome_map]
      exact ihd d

/-! ## Searching for a text -/

/-- A text before a trailing `%` is looked for at the beginning. -/
theorem matches_lits (cs text : List Char) :
    matches_ (cs.map .lit ++ [.many]) text = true ↔ cs <+: text := by
  induction cs generalizing text with
  | nil =>
    refine iff_of_true (List.any_eq_true.mpr ⟨[], ?_, rfl⟩) List.nil_prefix
    exact (List.mem_tails _ _).mpr List.nil_suffix
  | cons c cs ih =>
    cases text with
    | nil =>
      refine iff_of_false nofun ?_
      intro h
      cases List.prefix_nil.mp h
    | cons d text =>
      show (decide (c = d) && matches_ (cs.map .lit ++ [.many]) text) = true ↔ _
      rw [Bool.and_eq_true, decide_eq_true_eq, ih, List.cons_prefix_cons]

/-- A leading `%` looks at every place of the text. -/
theorem matches_many {ts : List Token} {text : List Char} :
    matches_ (.many :: ts) text = true ↔ ∃ rest, rest <:+ text ∧ matches_ ts rest = true := by
  show text.tails.any (matches_ ts) = true ↔ _
  rw [List.any_eq_true]
  simp only [List.mem_tails]

/-- The tokens of a text without special characters. -/
theorem tokens_plain {cs : List Char} (h : ∀ c ∈ cs, c ∉ specials) :
    tokens (cs ++ ['%']) = some (cs.map .lit ++ [.many]) := by
  induction cs with
  | nil => rfl
  | cons c cs ih =>
    rw [List.forall_mem_cons] at h
    have hc : c ≠ '\\' := by
      rintro rfl
      exact h.1 (by decide)
    rw [List.cons_append, tokens_cons hc, ih h.2, token_plain h.1]
    rfl

/-- **Literal search.** Between two `%`, a text without special characters is looked for as it is. -/
theorem matches_plain {cs : List Char} (h : ∀ c ∈ cs, c ∉ specials) {ts : List Token}
    (hts : tokens (cs ++ ['%']) = some ts) (text : List Char) :
    matches_ (.many :: ts) text = true ↔ cs <:+: text := by
  rw [tokens_plain h] at hts
  rw [← Option.some.inj hts, matches_many, List.infix_iff_prefix_suffix]
  constructor
  · rintro ⟨rest, hrest, hmatch⟩
    exact ⟨rest, (matches_lits cs rest).mp hmatch, hrest⟩
  · rintro ⟨rest, hcs, hrest⟩
    exact ⟨rest, hrest, (matches_lits cs rest).mpr hcs⟩

/-! ## Shortest texts -/

/-- A shortest text that the tokens match, with `x` for any character. -/
def least : List Token → List Char
  | [] => []
  | .many :: ts => least ts
  | .one :: ts => 'x' :: least ts
  | .lit c :: ts => c :: least ts

/-- Every text that the tokens match is at least as long. -/
theorem length_least_le {ts : List Token} {text : List Char} (h : matches_ ts text = true) :
    (least ts).length ≤ text.length := by
  induction ts generalizing text with
  | nil => exact Nat.zero_le _
  | cons t ts ih =>
    cases t with
    | many =>
      obtain ⟨rest, hrest, hmatch⟩ := matches_many.mp h
      exact le_trans (ih hmatch) hrest.length_le
    | one =>
      cases text with
      | nil => cases h
      | cons d text => exact Nat.succ_le_succ (ih h)
    | lit c =>
      cases text with
      | nil => cases h
      | cons d text =>
        have hrest : matches_ ts text = true := ((Bool.and_eq_true _ _).mp h).2
        exact Nat.succ_le_succ (ih hrest)

/-! ## Case folding -/

/-- A folding of letters leaves the special characters alone. -/
structure CaseFold (lower : Char → Char) : Prop where
  special : ∀ c ∈ specials, lower c = c
  other : ∀ c, c ∉ specials → lower c ∉ specials

theorem CaseFold.eq_iff {lower : Char → Char} (h : CaseFold lower) {c d : Char} (hd : d ∈ specials) :
    lower c = d ↔ c = d := by
  constructor
  · intro heq
    by_cases hc : c ∈ specials
    · rw [← h.special c hc, heq]
    · exact absurd (heq ▸ hd) (h.other c hc)
  · rintro rfl
    exact h.special c hd

def Token.map (lower : Char → Char) : Token → Token
  | many => many
  | one => one
  | lit c => lit (lower c)

/-- Folding changes no length. -/
theorem length_least_map (lower : Char → Char) (ts : List Token) :
    (least (ts.map (Token.map lower))).length = (least ts).length := by
  induction ts with
  | nil => rfl
  | cons t ts ih =>
    cases t with
    | many => exact ih
    | one => exact congrArg Nat.succ ih
    | lit c => exact congrArg Nat.succ ih

/-- A folded text matches what its tokens, folded, stand for. -/
theorem matches_least (lower : Char → Char) (ts : List Token) :
    matches_ (ts.map (Token.map lower)) ((least ts).map lower) = true := by
  induction ts with
  | nil => rfl
  | cons t ts ih =>
    cases t with
    | many => exact matches_many.mpr ⟨_, List.suffix_rfl, ih⟩
    | one => exact ih
    | lit c =>
      show (decide (lower c = lower c) && matches_ _ _) = true
      rw [decide_eq_true rfl, Bool.true_and]
      exact ih

section Folded

variable {lower : Char → Char} (h : CaseFold lower)

include h

theorem token_map (c : Char) : token (lower c) = (token c).map lower := by
  unfold token
  simp only [h.eq_iff (show '%' ∈ specials by decide), h.eq_iff (show '_' ∈ specials by decide)]
  split_ifs <;> rfl

/-- Folding a pattern folds its literal characters. -/
theorem tokens_map (cs : List Char) :
    tokens (cs.map lower) = (tokens cs).map (List.map (Token.map lower)) := by
  induction cs using List.twoStepInduction with
  | nil => rfl
  | singleton c =>
    by_cases hc : c = '\\'
    · rw [hc, List.map_singleton, h.special _ (by decide)]
      rfl
    · rw [List.map_singleton, tokens_cons hc, tokens_cons (mt (h.eq_iff (by decide)).mp hc),
        token_map h]
      rfl
  | cons_cons c d cs ih ihd =>
    by_cases hc : c = '\\'
    · rw [hc, List.map_cons, List.map_cons, h.special _ (by decide), tokens_escape, tokens_escape, ih,
        Option.map_map, Option.map_map]
      rfl
    · rw [List.map_cons, tokens_cons hc, tokens_cons (mt (h.eq_iff (by decide)).mp hc), ihd d,
        token_map h, Option.map_map, Option.map_map]
      rfl

/-- A shortest text compared with the pattern, character by character. -/
structure LeastOf (lower : Char → Char) (ts : List Token) (cs : List Char) : Prop where
  length : (least ts).length ≤ cs.length
  plain : (least ts).map lower = cs.map lower → ∀ c ∈ cs, c ∉ specials

theorem LeastOf.cons {c : Char} (hc : c ≠ '\\') {ts : List Token} {cs : List Char}
    (hleast : LeastOf lower ts cs) : LeastOf lower (token c :: ts) (c :: cs) := by
  have hlength := hleast.length
  unfold token
  split_ifs with hmany hone
  · -- nothing stands for the `%`, so the lengths differ
    constructor
    · rw [List.length_cons]
      exact Nat.le_succ_of_le hlength
    · intro heq
      have hlengths := congrArg List.length heq
      rw [List.length_map, List.length_map, List.length_cons] at hlengths
      have hsame : (least (.many :: ts)).length = (least ts).length := rfl
      omega
  · constructor
    · exact Nat.succ_le_succ hlength
    · intro heq
      have hhead : lower 'x' = lower c := (List.cons.inj heq).1
      rw [hone, h.special '_' (by decide), h.eq_iff (by decide)] at hhead
      exact absurd hhead (by decide)
  · constructor
    · exact Nat.succ_le_succ hlength
    · intro heq
      rw [List.forall_mem_cons]
      refine ⟨?_, hleast.plain (List.cons.inj heq).2⟩
      simp only [specials, List.mem_cons, List.not_mem_nil, or_false, not_or]
      exact ⟨hmany, hone, hc⟩

/-- The shortest text is no longer than the pattern, and another one if there is a special
character. -/
theorem leastOf_tokens {cs : List Char} {ts : List Token} (hts : tokens (cs ++ ['%']) = some ts) :
    LeastOf lower ts cs := by
  induction cs using List.twoStepInduction generalizing ts with
  | nil =>
    cases hts
    exact ⟨le_refl _, fun _ => nofun⟩
  | singleton c =>
    by_cases hc : c = '\\'
    · -- the trailing `%` is escaped
      subst hc
      cases hts
      refine ⟨le_refl _, fun heq => ?_⟩
      have hhead : lower '%' = lower '\\' := (List.cons.inj heq).1
      rw [h.special '%' (by decide), h.special '\\' (by decide)] at hhead
      exact absurd hhead (by decide)
    · rw [List.singleton_append, tokens_cons hc] at hts
      obtain ⟨ts', hts', rfl⟩ := Option.map_eq_some_iff.mp hts
      cases hts'
      exact LeastOf.cons h hc ⟨le_refl _, fun _ => nofun⟩
  | cons_cons c d cs ih ihd =>
    by_cases hc : c = '\\'
    · subst hc
      rw [List.cons_append, List.cons_append, tokens_escape] at hts
      obtain ⟨ts', hts', rfl⟩ := Option.map_eq_some_iff.mp hts
      have hlength := (ih hts').length
      have hsame : (least (.lit d :: ts')).length = (least ts').length + 1 := rfl
      constructor
      · rw [hsame, List.length_cons, List.length_cons]
        omega
      · intro heq
        have hlengths := congrArg List.length heq
        rw [List.length_map, List.length_map, hsame, List.length_cons, List.length_cons] at hlengths
        omega
    · rw [List.cons_append, tokens_cons hc] at hts
      obtain ⟨ts', hts', rfl⟩ := Option.map_eq_some_iff.mp hts
      exact LeastOf.cons h hc (ihd d hts')

/-- **Wildcards.** If the pattern has a special character, a shortest text that it matches does not
contain it. -/
theorem not_infix_least {cs : List Char} {ts : List Token} (hts : tokens (cs ++ ['%']) = some ts)
    {c : Char} (hc : c ∈ cs) (hspecial : c ∈ specials) :
    ¬ cs.map lower <:+: (least ts).map lower := by
  intro hsub
  have hleast := leastOf_tokens h hts
  refine hleast.plain ?_ c hc hspecial
  apply (hsub.eq_of_length _).symm
  have hle := hsub.length_le
  have hlength := hleast.length
  rw [List.length_map, List.length_map] at hle ⊢
  omega

end Folded

end Like

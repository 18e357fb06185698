import Mathlib.Data.List.TakeWhile
import Mathlib.Tactic.Basic

/-!
# Codes

A code says which words stand for which symbols, and a text is read by cutting it into words. No word
of a prefix code is empty or begins another one, so a text can be read in at most one way, from left
to right, whatever wrote it. `fields` cuts a text at a separator and each piece at the first mark, as
lists of named values are written.
-/

namespace Codes

variable {α β : Type} {code code' : α → List β → Prop}

/-! ## Reading a text -/

/-- The text is the words of the symbols, one after the other. -/
inductive Reads (code : α → List β → Prop) : List β → List α → Prop
  | nil : Reads code [] []
  | cons {a : α} {word text : List β} {symbols : List α} :
      code a word → Reads code text symbols → Reads code (word ++ text) (a :: symbols)

/-- Another code with at least these words reads the text too. -/
theorem Reads.mono {text : List β} {symbols : List α} (hsub : ∀ a word, code a word → code' a word)
    (h : Reads code text symbols) : Reads code' text symbols := by
  induction h with
  | nil => exact .nil
  | cons hword _ ih => exact .cons (hsub _ _ hword) ih

/-- What is written symbol by symbol can be read. -/
theorem reads_flatMap {write : α → List β} (hwrite : ∀ a, code a (write a)) (symbols : List α) :
    Reads code (symbols.flatMap write) symbols := by
  induction symbols with
  | nil => exact .nil
  | cons a symbols ih =>
    rw [List.flatMap_cons]
    exact .cons (hwrite a) ih

/-- Some word begins the text. -/
def Begins (code : α → List β → Prop) (text : List β) : Prop :=
  ∃ a word rest, code a word ∧ text = word ++ rest

theorem Reads.begins {text : List β} {symbols : List α} (h : Reads code text symbols)
    (hne : text ≠ []) : Begins code text := by
  cases h with
  | nil => exact absurd rfl hne
  | cons hword _ => exact ⟨_, _, _, hword, rfl⟩

/-! ## Prefix codes -/

/-- No word is empty, and none begins another. -/
structure IsPrefix (code : α → List β → Prop) : Prop where
  ne_nil : ∀ {a word}, code a word → word ≠ []
  cancel : ∀ {a a' word word' text text'}, code a word → code a' word' →
    word ++ text = word' ++ text' → a = a' ∧ text = text'

/-- Only the empty text is read as no symbols, and only as that. -/
theorem reads_nil_iff (hcode : IsPrefix code) {symbols : List α} :
    Reads code [] symbols ↔ symbols = [] := by
  constructor
  · intro h
    generalize htext : ([] : List β) = text at h
    cases h with
    | nil => rfl
    | cons hword _ => exact absurd (List.append_eq_nil_iff.mp htext.symm).1 (hcode.ne_nil hword)
  · rintro rfl
    exact .nil

/-- A text that a word begins is read as its symbol, and what the rest is read as. -/
theorem reads_word_iff (hcode : IsPrefix code) {a : α} {word text : List β} {symbols : List α}
    (hword : code a word) :
    Reads code (word ++ text) symbols ↔ ∃ rest, symbols = a :: rest ∧ Reads code text rest := by
  constructor
  · intro h
    generalize htext : word ++ text = whole at h
    cases h with
    | nil => exact absurd (List.append_eq_nil_iff.mp htext).1 (hcode.ne_nil hword)
    | cons hword' hrest =>
      have heq := hcode.cancel hword hword' htext
      rw [heq.1, heq.2]
      exact ⟨_, rfl, hrest⟩
  · rintro ⟨rest, rfl, hrest⟩
    exact .cons hword hrest

/-- There is one way to read a text, at most. -/
theorem Reads.unique (hcode : IsPrefix code) {text : List β} {symbols symbols' : List α}
    (h : Reads code text symbols) (h' : Reads code text symbols') : symbols = symbols' := by
  induction h generalizing symbols' with
  | nil => exact ((reads_nil_iff hcode).mp h').symm
  | cons hword _ ih =>
    obtain ⟨rest, rfl, hrest⟩ := (reads_word_iff hcode hword).mp h'
    rw [ih hrest]

/-- The text is read up to `rest`, which no word begins. -/
def StuckAt (code : α → List β → Prop) (text rest : List β) : Prop :=
  ∃ before symbols, text = before ++ rest ∧ Reads code before symbols ∧ rest ≠ [] ∧ ¬ Begins code rest

theorem stuckAt_self {text : List β} (hne : text ≠ []) (h : ¬ Begins code text) :
    StuckAt code text text :=
  ⟨[], [], rfl, .nil, hne, h⟩

theorem StuckAt.word {a : α} {word text rest : List β} (hword : code a word)
    (h : StuckAt code text rest) : StuckAt code (word ++ text) rest := by
  obtain ⟨before, symbols, rfl, hreads, hne, hstuck⟩ := h
  exact ⟨word ++ before, a :: symbols, (List.append_assoc _ _ _).symm, .cons hword hreads, hne, hstuck⟩

/-- Such a text cannot be read. -/
theorem StuckAt.not_reads (hcode : IsPrefix code) {text rest : List β} {symbols : List α}
    (h : StuckAt code text rest) : ¬ Reads code text symbols := by
  obtain ⟨before, readSymbols, rfl, hreads, hne, hstuck⟩ := h
  intro hwhole
  induction hreads generalizing symbols with
  | nil => exact hstuck (hwhole.begins hne)
  | cons hword _ ih =>
    rw [List.append_assoc] at hwhole
    obtain ⟨_, _, hrest⟩ := (reads_word_iff hcode hword).mp hwhole
    exact ih hrest

/-! ## Named values -/

/-- The readings of a name and of its value. -/
def ReadsPair (code : α → List β → Prop) (field : List β × List β) (pair : List α × List α) : Prop :=
  Reads code field.1 pair.1 ∧ Reads code field.2 pair.2

theorem intercalate_cons (sep : β) (piece : List β) (pieces : List (List β)) :
    [sep].intercalate (piece :: pieces) = piece ++ pieces.flatMap (sep :: ·) := by
  induction pieces generalizing piece with
  | nil => rw [List.intercalate_singleton, List.flatMap_nil, List.append_nil]
  | cons next pieces ih =>
    rw [List.intercalate_cons_cons, ih, List.flatMap_cons, List.append_assoc]
    rfl

variable [DecidableEq β] (sep mark : β)

/-- A piece cut at its first mark; without one it is all name. -/
def cut (piece : List β) : List β × List β :=
  (piece.takeWhile (· ≠ mark), (piece.dropWhile (· ≠ mark)).tail)

/-- The fields of a text: its pieces, each cut, but for those without a name. -/
def fields (text : List β) : List (List β × List β) :=
  ((text.splitOn sep).map (cut mark)).filter fun field => field.1 ≠ []

variable {sep mark}

/-- A name without the mark is cut off from its value. -/
theorem cut_mark {name value : List β} (hname : mark ∉ name) :
    cut mark (name ++ mark :: value) = (name, value) := by
  have hall : ∀ b ∈ name, decide (b ≠ mark) = true := by
    intro b hb
    exact decide_eq_true fun heq => hname (heq ▸ hb)
  have htake : (name ++ mark :: value).takeWhile (· ≠ mark) = name := by
    rw [List.takeWhile_append_of_pos hall, List.takeWhile_cons_of_neg (by simp), List.append_nil]
  have hdrop : (name ++ mark :: value).dropWhile (· ≠ mark) = mark :: value := by
    rw [List.dropWhile_append_of_pos hall, List.dropWhile_cons_of_neg (by simp)]
  rw [cut, htake, hdrop, List.tail_cons]

/-- A piece without the mark is a name. -/
theorem cut_name {name : List β} (hname : mark ∉ name) : cut mark name = (name, []) := by
  have hall : ∀ b ∈ name, decide (b ≠ mark) = true := by
    intro b hb
    exact decide_eq_true fun heq => hname (heq ▸ hb)
  rw [cut, List.takeWhile_eq_self_iff.mpr hall, List.dropWhile_eq_nil_iff.mpr hall, List.tail_nil]

/-- Pieces joined by the separator are what the text is split into. -/
theorem fields_intercalate {pieces : List (List β)} (hsep : ∀ piece ∈ pieces, sep ∉ piece) :
    fields sep mark ([sep].intercalate pieces) =
      (pieces.map (cut mark)).filter fun field => field.1 ≠ [] := by
  by_cases hne : pieces = []
  · subst hne
    rfl
  · rw [fields, List.splitOn_intercalate sep hsep hne]

/-- A fold over the fields is a fold over the pieces that passes over those without a name. -/
theorem foldlM_fields {m : Type → Type} [Monad m] [LawfulMonad m] {σ : Type}
    (consume : σ → List β × List β → m σ) (s : σ) (text : List β) :
    (fields sep mark text).foldlM consume s =
      (text.splitOn sep).foldlM
        (fun s piece => if (cut mark piece).1 ≠ [] then consume s (cut mark piece) else pure s) s := by
  unfold fields
  generalize text.splitOn sep = pieces
  induction pieces generalizing s with
  | nil => rfl
  | cons piece pieces ih =>
    rw [List.map_cons, List.foldlM_cons]
    by_cases hname : (cut mark piece).1 = []
    · rw [List.filter_cons_of_neg (by simp [hname]), if_neg (not_not_intro hname), pure_bind, ih]
    · rw [List.filter_cons_of_pos (by simp [hname]), if_pos hname, List.foldlM_cons]
      congr 1
      funext s'
      exact ih s'

end Codes

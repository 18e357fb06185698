import SocialNetwork.Lib.Prog
import Mathlib.Data.List.Basic
import Mathlib.Data.List.InsertIdx
import Mathlib.Tactic.Basic

/-!
# Interleaved programs over a shared state

A pool is a shared state together with the programs in flight. One step of the pool lets one
of them make one atomic step: `Server.exec` answers the call the program is about to make,
possibly after several atomic steps of its own (a call that loops keeps its loop state in
`aux` between them). The environment's choices are the argument `ω`.

`advance_eq_some` is the inversion lemma every invariant proof starts from: it splits the
pool at the task that moved.
-/

namespace Pool

variable {L C : Type} {R : C → Type} {ε α A S Ω : Type}

/-- A program in flight: who runs it, what it still has to do, and the progress of the call
it is in. -/
structure Task (L C : Type) (R : C → Type) (ε α A : Type) where
  label : L
  prog : Prog C R ε α
  aux : A

/-- How the environment answers calls: either the call goes on, or it answers. -/
structure Server (L C : Type) (R : C → Type) (ε A S Ω : Type) where
  /-- The progress of a call that has not begun. -/
  fresh : A
  exec : L → (c : C) → A → Ω → S → Option (S × (A ⊕ Except ε (R c)))

/-- The shared state and the programs in flight. -/
structure Config (S L C : Type) (R : C → Type) (ε α A : Type) where
  shared : S
  tasks : List (Task L C R ε α A)

/-- A program enters the pool. -/
def spawn (srv : Server L C R ε A S Ω) (l : L) (p : Prog C R ε α)
    (cfg : Config S L C R ε α A) : Config S L C R ε α A :=
  { cfg with tasks := cfg.tasks ++ [⟨l, p, srv.fresh⟩] }

/-- One atomic step of one task. -/
def Task.step (srv : Server L C R ε A S Ω) (t : Task L C R ε α A) (ω : Ω) (s : S) :
    Option (S × Task L C R ε α A) :=
  match t.prog with
  | .ret _ => none
  | .raise _ => none
  | .call c k =>
    match srv.exec t.label c t.aux ω s with
    | none => none
    | some (s', .inl a) => some (s', { t with aux := a })
    | some (s', .inr r) => some (s', { t with prog := k r, aux := srv.fresh })

/-- The `i`-th task makes one atomic step. -/
def advance (srv : Server L C R ε A S Ω) (i : Nat) (ω : Ω) (cfg : Config S L C R ε α A) :
    Option (Config S L C R ε α A) :=
  match cfg.tasks[i]? with
  | none => none
  | some t =>
    match t.step srv ω cfg.shared with
    | none => none
    | some (s', t') => some ⟨s', cfg.tasks.set i t'⟩

/-- The result of a program that has ended. -/
def outcome : Prog C R ε α → Option (Except ε α)
  | .ret a => some (.ok a)
  | .raise e => some (.error e)
  | .call _ _ => none

/-- The `i`-th task has ended and leaves the pool with its result. -/
def retire (i : Nat) (cfg : Config S L C R ε α A) :
    Option (L × Except ε α × Config S L C R ε α A) :=
  match cfg.tasks[i]? with
  | none => none
  | some t => (outcome t.prog).map fun r => (t.label, r, ⟨cfg.shared, cfg.tasks.eraseIdx i⟩)

variable {srv : Server L C R ε A S Ω} {cfg cfg' : Config S L C R ε α A} {i : Nat} {ω : Ω}

/-! ## Inversion -/

/-- A list read at an index splits there, and so do its update and its erasure. -/
theorem split_getElem? {β : Type} {l : List β} {i : Nat} {x : β} (h : l[i]? = some x) :
    ∃ l₁ l₂, l = l₁ ++ x :: l₂ ∧ l.eraseIdx i = l₁ ++ l₂ ∧
      ∀ y, l.set i y = l₁ ++ y :: l₂ := by
  obtain ⟨hi, rfl⟩ := List.getElem?_eq_some_iff.mp h
  refine ⟨l.take i, l.drop (i + 1), ?_, ?_, fun y => ?_⟩
  · rw [List.getElem_cons_drop, List.take_append_drop]
  · exact List.eraseIdx_eq_take_drop_succ l i
  · exact List.set_eq_take_append_cons_drop.trans (if_pos hi)

/-- What one atomic step of a task does. -/
theorem Task.step_eq_some {t t' : Task L C R ε α A} {s s' : S} :
    t.step srv ω s = some (s', t') ↔
      ∃ c k, t.prog = .call c k ∧
        ((∃ a, srv.exec t.label c t.aux ω s = some (s', .inl a) ∧ t' = { t with aux := a }) ∨
          (∃ r, srv.exec t.label c t.aux ω s = some (s', .inr r) ∧
            t' = { t with prog := k r, aux := srv.fresh })) := by
  obtain ⟨l, p, aux⟩ := t
  constructor
  · intro h
    cases p with
    | ret a => cases h
    | raise e => cases h
    | call c k =>
      refine ⟨c, k, rfl, ?_⟩
      simp only [Task.step] at h
      split at h
      · cases h
      · next s₁ a he =>
        cases h
        exact .inl ⟨a, he, rfl⟩
      · next s₁ r he =>
        cases h
        exact .inr ⟨r, he, rfl⟩
  · rintro ⟨c, k, rfl, ⟨a, he, rfl⟩ | ⟨r, he, rfl⟩⟩ <;> simp only [Task.step, he]

/-- What a step of the pool does: it splits at the task that moved. -/
theorem advance_eq_some (h : advance srv i ω cfg = some cfg') :
    ∃ l₁ t l₂ t', cfg.tasks[i]? = some t ∧ cfg.tasks = l₁ ++ t :: l₂ ∧
      t.step srv ω cfg.shared = some (cfg'.shared, t') ∧ cfg'.tasks = l₁ ++ t' :: l₂ := by
  unfold advance at h
  split at h
  · cases h
  · next t hi =>
    split at h
    · cases h
    · next s' t' hs =>
      cases h
      obtain ⟨l₁, l₂, hl, -, hset⟩ := split_getElem? hi
      exact ⟨l₁, t, l₂, t', hi, hl, hs, hset t'⟩

/-- The task that moves keeps its position. -/
theorem advance_set (h : advance srv i ω cfg = some cfg') :
    ∃ t t', cfg.tasks[i]? = some t ∧ t.step srv ω cfg.shared = some (cfg'.shared, t') ∧
      cfg'.tasks = cfg.tasks.set i t' := by
  unfold advance at h
  split at h
  · cases h
  · next t hi =>
    split at h
    · cases h
    · next s' t' hs =>
      cases h
      exact ⟨t, t', hi, hs, rfl⟩

/-- The task that has ended makes room. -/
theorem retire_eraseIdx {l : L} {r : Except ε α} (h : retire i cfg = some (l, r, cfg')) :
    ∃ t, cfg.tasks[i]? = some t ∧ t.label = l ∧ outcome t.prog = some r ∧
      cfg' = ⟨cfg.shared, cfg.tasks.eraseIdx i⟩ := by
  unfold retire at h
  split at h
  · cases h
  · next t hi =>
    obtain ⟨r', hr, he⟩ := Option.map_eq_some_iff.mp h
    cases he
    exact ⟨t, hi, rfl, hr, rfl⟩

/-- What leaving the pool does: it splits at the task that ended. -/
theorem retire_eq_some {l : L} {r : Except ε α} (h : retire i cfg = some (l, r, cfg')) :
    ∃ l₁ t l₂, cfg.tasks[i]? = some t ∧ cfg.tasks = l₁ ++ t :: l₂ ∧ t.label = l ∧
      outcome t.prog = some r ∧ cfg' = ⟨cfg.shared, l₁ ++ l₂⟩ := by
  unfold retire at h
  split at h
  · cases h
  · next t hi =>
    obtain ⟨r', hr, he⟩ := Option.map_eq_some_iff.mp h
    cases he
    obtain ⟨l₁, l₂, hl, her, -⟩ := split_getElem? hi
    exact ⟨l₁, t, l₂, hi, hl, rfl, hr, by rw [her]⟩

/-- Programs that obey their monitors go on doing so. -/
theorem advance_obeys {G : Type} {M : L → Prog.Monitor C R ε G} {Q : L → Except ε α → G → Prop}
    (hall : ∀ t ∈ cfg.tasks, ∃ g, t.prog.Obeys (M t.label) (Q t.label) g)
    (h : advance srv i ω cfg = some cfg') :
    ∀ t ∈ cfg'.tasks, ∃ g, t.prog.Obeys (M t.label) (Q t.label) g := by
  obtain ⟨l₁, t, l₂, t', hi, hsplit, hstep, htasks⟩ := advance_eq_some h
  obtain ⟨g, hg⟩ := hall t (List.mem_of_getElem? hi)
  obtain ⟨c, k, hprog, hcall⟩ := Task.step_eq_some.mp hstep
  intro u hu
  rw [htasks] at hu
  rcases List.mem_append.mp hu with hu | hu
  · exact hall u (by rw [hsplit]; exact List.mem_append_left _ hu)
  · rcases List.mem_cons.mp hu with rfl | hu
    · rcases hcall with ⟨a, _, rfl⟩ | ⟨r, _, rfl⟩
      · exact ⟨g, hg⟩
      · rw [hprog, Prog.obeys_call] at hg
        exact ⟨_, hg.2 r⟩
    · exact hall u (by rw [hsplit]; exact List.mem_append_right _ (List.mem_cons_of_mem _ hu))

/-- A program that has ended is bound to nothing. -/
theorem not_will_of_outcome {p : Prog C R ε α} {r : Except ε α} (h : outcome p = some r) (c : C) :
    ¬ p.Will c := by
  cases p with
  | ret a => exact id
  | raise e => exact id
  | call c' k => cases h

/-- A program that has come to a result returns it. -/
theorem eq_ret_of_outcome {p : Prog C R ε α} {a : α} (h : outcome p = some (.ok a)) : p = .ret a := by
  cases p with
  | ret b =>
    cases h
    rfl
  | raise e => cases h
  | call c k => cases h

/-! ## Histories -/

section History

variable {L' S' : Type} {f : L' → L} {g : S' → S} {srv' : Server L' C R ε A S' Ω}

/-- A task without a part of its label. -/
def Task.forget (f : L' → L) (t : Task L' C R ε α A) : Task L C R ε α A := ⟨f t.label, t.prog, t.aux⟩

/-- A pool without a part of its labels and of its state. -/
def Config.forget (f : L' → L) (g : S' → S) (cfg : Config S' L' C R ε α A) :
    Config S L C R ε α A := ⟨g cfg.shared, cfg.tasks.map (Task.forget f)⟩

/-- A server that answers as another one does, and keeps a history besides. -/
structure Records (f : L' → L) (g : S' → S) (srv' : Server L' C R ε A S' Ω)
    (srv : Server L C R ε A S Ω) : Prop where
  fresh : srv'.fresh = srv.fresh
  exec : ∀ l c a ω s,
    (srv'.exec l c a ω s).map (fun x => (g x.1, x.2)) = srv.exec (f l) c a ω (g s)

theorem Records.spawn (h : Records f g srv' srv) (l : L') (p : Prog C R ε α)
    (cfg : Config S' L' C R ε α A) :
    (Pool.spawn srv' l p cfg).forget f g = Pool.spawn srv (f l) p (cfg.forget f g) := by
  unfold Pool.spawn Config.forget
  rw [List.map_append, List.map_singleton, Task.forget, h.fresh]

theorem Records.taskStep (h : Records f g srv' srv) (t : Task L' C R ε α A) (ω : Ω) (s : S') :
    (t.step srv' ω s).map (fun x => (g x.1, x.2.forget f)) = (t.forget f).step srv ω (g s) := by
  obtain ⟨l, p, aux⟩ := t
  cases p with
  | ret a => rfl
  | raise e => rfl
  | call c k =>
    have hexec := h.exec l c aux ω s
    unfold Task.step Task.forget
    simp only
    rw [← hexec]
    cases srv'.exec l c aux ω s with
    | none => rfl
    | some x =>
      obtain ⟨s', a | r⟩ := x
      · rfl
      · simp only [Option.map_some, h.fresh]

/-- A step of the pool with its history is a step of the pool. -/
theorem Records.advance (h : Records f g srv' srv) (i : Nat) (ω : Ω) (cfg : Config S' L' C R ε α A) :
    (Pool.advance srv' i ω cfg).map (Config.forget f g) =
      Pool.advance srv i ω (cfg.forget f g) := by
  have hget : (cfg.forget f g).tasks[i]? = cfg.tasks[i]?.map (Task.forget f) := List.getElem?_map
  unfold Pool.advance
  rw [hget]
  cases cfg.tasks[i]? with
  | none => rfl
  | some t =>
    have hstep : (t.forget f).step srv ω (cfg.forget f g).shared =
        (t.step srv' ω cfg.shared).map fun x => (g x.1, x.2.forget f) :=
      (h.taskStep t ω cfg.shared).symm
    simp only [Option.map_some, hstep]
    cases t.step srv' ω cfg.shared with
    | none => rfl
    | some x =>
      simp only [Option.map_some, Config.forget]
      rw [List.map_set]

theorem retire_forget (i : Nat) (cfg : Config S' L' C R ε α A) :
    (retire i cfg).map (fun x => (f x.1, x.2.1, x.2.2.forget f g)) =
      retire i (cfg.forget f g) := by
  have hget : (cfg.forget f g).tasks[i]? = cfg.tasks[i]?.map (Task.forget f) := List.getElem?_map
  unfold retire
  rw [hget]
  cases cfg.tasks[i]? with
  | none => rfl
  | some t =>
    have houtcome : outcome (t.forget f).prog = outcome t.prog := rfl
    simp only [Option.map_some, houtcome]
    cases outcome t.prog with
    | none => rfl
    | some r =>
      simp only [Option.map_some, Config.forget]
      rw [List.eraseIdx_map]
      rfl

end History

/-! ## Two pools side by side -/

section Both

variable {S' Ω' : Type} {srv' : Server L C R ε A S' Ω'} {cfg₁ : Config S' L C R ε α A}
  {rel : Task L C R ε α A → Task L C R ε α A → Prop}

theorem forall₂_getElem? {β γ : Type} {rel : β → γ → Prop} {xs : List β} {ys : List γ}
    (h : List.Forall₂ rel xs ys) {i : Nat} {x : β} {y : γ} (hx : xs[i]? = some x)
    (hy : ys[i]? = some y) : rel x y := by
  induction h generalizing i with
  | nil => cases hx
  | cons hrel _ ih =>
    cases i with
    | zero =>
      cases hx
      cases hy
      exact hrel
    | succ i => exact ih hx hy

theorem forall₂_set {β γ : Type} {rel : β → γ → Prop} {xs : List β} {ys : List γ}
    (h : List.Forall₂ rel xs ys) (i : Nat) {x : β} {y : γ} (hxy : rel x y) :
    List.Forall₂ rel (xs.set i x) (ys.set i y) := by
  induction h generalizing i with
  | nil => exact .nil
  | cons hrel hrest ih =>
    cases i with
    | zero => exact .cons hxy hrest
    | succ i => exact .cons hrel (ih i)

theorem forall₂_eraseIdx {β γ : Type} {rel : β → γ → Prop} {xs : List β} {ys : List γ}
    (h : List.Forall₂ rel xs ys) (i : Nat) : List.Forall₂ rel (xs.eraseIdx i) (ys.eraseIdx i) := by
  induction h generalizing i with
  | nil => exact .nil
  | cons hrel hrest ih =>
    cases i with
    | zero => exact hrest
    | succ i => exact .cons hrel (ih i)

/-- Related tasks make a step in both pools, which stay related if the tasks do. -/
theorem advance_both {ω' : Ω'} {cfg₁' : Config S' L C R ε α A}
    (h : List.Forall₂ rel cfg.tasks cfg₁.tasks) (hstep : advance srv i ω cfg = some cfg')
    (hstep₁ : advance srv' i ω' cfg₁ = some cfg₁') :
    ∃ t t₁ u u₁, cfg.tasks[i]? = some t ∧ rel t t₁ ∧
      t.step srv ω cfg.shared = some (cfg'.shared, u) ∧
      t₁.step srv' ω' cfg₁.shared = some (cfg₁'.shared, u₁) ∧
      (rel u u₁ → List.Forall₂ rel cfg'.tasks cfg₁'.tasks) := by
  unfold advance at hstep hstep₁
  split at hstep
  · cases hstep
  · next t hi =>
    split at hstep₁
    · cases hstep₁
    · next t₁ hi₁ =>
      split at hstep
      · cases hstep
      · next s u hs =>
        split at hstep₁
        · cases hstep₁
        · next s₁ u₁ hs₁ =>
          cases hstep
          cases hstep₁
          exact ⟨t, t₁, u, u₁, hi, forall₂_getElem? h hi hi₁, hs, hs₁, forall₂_set h i⟩

/-- Related tasks leave both pools. -/
theorem retire_both {l l₁ : L} {r r₁ : Except ε α} {cfg₁' : Config S' L C R ε α A}
    (h : List.Forall₂ rel cfg.tasks cfg₁.tasks) (hretire : retire i cfg = some (l, r, cfg'))
    (hretire₁ : retire i cfg₁ = some (l₁, r₁, cfg₁')) :
    ∃ t t₁, rel t t₁ ∧ outcome t.prog = some r ∧ outcome t₁.prog = some r₁ ∧
      cfg'.shared = cfg.shared ∧ cfg₁'.shared = cfg₁.shared ∧
      List.Forall₂ rel cfg'.tasks cfg₁'.tasks := by
  unfold retire at hretire hretire₁
  split at hretire
  · cases hretire
  · next t hi =>
    split at hretire₁
    · cases hretire₁
    · next t₁ hi₁ =>
      obtain ⟨x, hx, heq⟩ := Option.map_eq_some_iff.mp hretire
      obtain ⟨x₁, hx₁, heq₁⟩ := Option.map_eq_some_iff.mp hretire₁
      cases heq
      cases heq₁
      exact ⟨t, t₁, forall₂_getElem? h hi hi₁, hx, hx₁, rfl, rfl, forall₂_eraseIdx h i⟩

end Both

/-! ## Servers whose calls are all atomic -/

/-- A server whose calls answer in one step. -/
def Server.atomic (exec : L → (c : C) → Ω → S → Option (S × Except ε (R c))) :
    Server L C R ε Unit S Ω where
  fresh := ()
  exec l c _ ω s := (exec l c ω s).map fun x => (x.1, .inr x.2)

/-- One step of a task on an atomic server: the call is answered. -/
theorem Task.step_atomic {exec : L → (c : C) → Ω → S → Option (S × Except ε (R c))}
    {t t' : Task L C R ε α Unit} {s s' : S}
    (h : t.step (Server.atomic exec) ω s = some (s', t')) :
    ∃ c k r, t.prog = .call c k ∧ exec t.label c ω s = some (s', r) ∧
      t' = { t with prog := k r } := by
  obtain ⟨c, k, hp, ⟨a, he, -⟩ | ⟨r, he, ht⟩⟩ := Task.step_eq_some.mp h
  · obtain ⟨x, -, hx⟩ := Option.map_eq_some_iff.mp he
    cases hx
  · obtain ⟨x, hx, he⟩ := Option.map_eq_some_iff.mp he
    cases he
    exact ⟨c, k, x.2, hp, hx, ht⟩

/-- One step of a pool on an atomic server: the task that moves gets its answer. -/
theorem advance_atomic {exec : L → (c : C) → Ω → S → Option (S × Except ε (R c))}
    {cfg cfg' : Config S L C R ε α Unit} (h : advance (Server.atomic exec) i ω cfg = some cfg') :
    ∃ l₁ t l₂ c k r, cfg.tasks[i]? = some t ∧ cfg.tasks = l₁ ++ t :: l₂ ∧ t.prog = .call c k ∧
      (Server.atomic exec).exec t.label c () ω cfg.shared = some (cfg'.shared, .inr r) ∧
      cfg'.tasks = l₁ ++ { t with prog := k r } :: l₂ := by
  obtain ⟨l₁, t, l₂, t', hi, hsplit, hstep, htasks⟩ := advance_eq_some h
  obtain ⟨c, k, r, hprog, hexec, rfl⟩ := Task.step_atomic hstep
  exact ⟨l₁, t, l₂, c, k, r, hi, hsplit, hprog, Option.map_eq_some_iff.mpr ⟨_, hexec, rfl⟩, htasks⟩

end Pool

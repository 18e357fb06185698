import Mathlib.Tactic.Basic

/-!
# Programs that make calls and may raise

A program is a tree: it returns, raises, or makes a call `c` to its environment and goes on
with what it does for each answer. Every call may raise instead of answering. `bind` and
`tryCatch` are the sequencing and the exception handling of the modelled languages, so a
source function can be written down in `do` notation line by line.

`Monitor` and `Prog.Obeys` are the rule for reasoning about a program without unfolding it
at every step: a monitor is a small ghost state that follows the calls and their answers and
says which calls are allowed in it; a program obeys the monitor when on every path each call
is allowed and the final ghost state meets a postcondition.
-/

/-- A program over the calls `C` with answers `R`, exceptions `ε` and result `α`. -/
inductive Prog (C : Type) (R : C → Type) (ε α : Type) : Type
  | ret (a : α)
  | raise (e : ε)
  | call (c : C) (k : Except ε (R c) → Prog C R ε α)

namespace Prog

variable {C : Type} {R : C → Type} {ε α β G : Type}

/-! ## Sequencing and exceptions -/

def bind : Prog C R ε α → (α → Prog C R ε β) → Prog C R ε β
  | ret a, f => f a
  | raise e, _ => raise e
  | call c k, f => call c fun r => bind (k r) f

/-- `try p except e: h e`. -/
def tryCatch : Prog C R ε α → (ε → Prog C R ε α) → Prog C R ε α
  | ret a, _ => ret a
  | raise e, h => h e
  | call c k, h => call c fun r => tryCatch (k r) h

instance : Monad (Prog C R ε) where
  pure := ret
  bind := bind

/-- Make a call; its exception propagates. -/
def perform (c : C) : Prog C R ε (R c) :=
  call c fun
    | .ok a => ret a
    | .error e => raise e

/-- The call a program is about to make. -/
def head? : Prog C R ε α → Option C
  | call c _ => some c
  | _ => none

@[simp] theorem head?_call (c : C) (k : Except ε (R c) → Prog C R ε α) :
    (call c k).head? = some c := rfl

@[simp] theorem ret_bind (a : α) (f : α → Prog C R ε β) : ret a >>= f = f a := rfl
@[simp] theorem pure_eq_ret (a : α) : (pure a : Prog C R ε α) = ret a := rfl

theorem bind_assoc_eq {γ : Type} (p : Prog C R ε α) (f : α → Prog C R ε β)
    (h : β → Prog C R ε γ) : p >>= f >>= h = p >>= fun a => f a >>= h := by
  induction p with
  | ret a => rfl
  | raise e => rfl
  | call c k ih =>
    show call c (fun r => k r >>= f >>= h) = call c (fun r => k r >>= fun a => f a >>= h)
    exact congrArg (call c) (funext ih)

/-! ## Running a program alone -/

/-- Run a program to its end against an environment that answers every call. -/
def eval {S : Type} (answer : (c : C) → S → S × Except ε (R c)) :
    Prog C R ε α → S → S × Except ε α
  | ret a, s => (s, .ok a)
  | raise e, s => (s, .error e)
  | call c k, s => eval answer (k (answer c s).2) (answer c s).1

/-- A call alone is what the environment answers. -/
theorem eval_perform {S : Type} {answer : (c : C) → S → S × Except ε (R c)} (c : C) (s : S) :
    (perform c).eval answer s = answer c s := by
  have hsplit : answer c s = ((answer c s).1, (answer c s).2) := rfl
  show eval answer (match (answer c s).2 with
    | .ok a => ret a
    | .error e => raise e) (answer c s).1 = _
  rw [hsplit]
  cases (answer c s).2 <;> rfl

/-- A call that answers is followed by what is done with its answer. -/
theorem eval_perform_bind {S : Type} {answer : (c : C) → S → S × Except ε (R c)} {c : C}
    {f : R c → Prog C R ε β} {s s' : S} {a : R c} (h : answer c s = (s', .ok a)) :
    (perform c >>= f).eval answer s = (f a).eval answer s' := by
  show eval answer (bind (match (answer c s).2 with
    | .ok a => ret a
    | .error e => raise e) f) (answer c s).1 = _
  rw [h]
  rfl

/-- A call that raises ends what it stands before. -/
theorem eval_perform_bind_error {S : Type} {answer : (c : C) → S → S × Except ε (R c)} {c : C}
    {f : R c → Prog C R ε β} {s s' : S} {e : ε} (h : answer c s = (s', .error e)) :
    (perform c >>= f).eval answer s = (s', .error e) := by
  show eval answer (bind (match (answer c s).2 with
    | .ok a => ret a
    | .error e => raise e) f) (answer c s).1 = _
  rw [h]
  rfl

/-- Sequencing: the second program starts where the first one has answered. -/
theorem eval_bind {S : Type} {answer : (c : C) → S → S × Except ε (R c)} {p : Prog C R ε α}
    {f : α → Prog C R ε β} {s s' : S} {a : α} (h : p.eval answer s = (s', .ok a)) :
    (p >>= f).eval answer s = (f a).eval answer s' := by
  induction p generalizing s with
  | ret b =>
    cases h
    rfl
  | raise e => cases h
  | call c k ih => exact ih _ h

/-- An exception ends the sequence. -/
theorem eval_bind_error {S : Type} {answer : (c : C) → S → S × Except ε (R c)} {p : Prog C R ε α}
    {f : α → Prog C R ε β} {s s' : S} {e : ε} (h : p.eval answer s = (s', .error e)) :
    (p >>= f).eval answer s = (s', .error e) := by
  induction p generalizing s with
  | ret b => cases h
  | raise e' =>
    cases h
    rfl
  | call c k ih => exact ih _ h

/-- What is returned inside `try` is returned. -/
theorem eval_tryCatch {S : Type} {answer : (c : C) → S → S × Except ε (R c)} {p : Prog C R ε α}
    {h : ε → Prog C R ε α} {s s' : S} {a : α} (hp : p.eval answer s = (s', .ok a)) :
    (tryCatch p h).eval answer s = (s', .ok a) := by
  induction p generalizing s with
  | ret b => exact hp
  | raise e => cases hp
  | call c k ih => exact ih _ hp

/-- An exception inside `try` is handled where it left the environment. -/
theorem eval_tryCatch_error {S : Type} {answer : (c : C) → S → S × Except ε (R c)}
    {p : Prog C R ε α} {h : ε → Prog C R ε α} {s s' : S} {e : ε}
    (hp : p.eval answer s = (s', .error e)) :
    (tryCatch p h).eval answer s = (h e).eval answer s' := by
  induction p generalizing s with
  | ret b => cases hp
  | raise e' =>
    cases hp
    rfl
  | call c k ih => exact ih _ hp

/-! ## Runs with choices -/

/-- A run of a program alone, with one choice of the environment for each call. -/
def run {S Ω : Type} (exec : (c : C) → Ω → S → Option (S × Except ε (R c))) :
    Prog C R ε α → List Ω → S → Option (S × Except ε α)
  | ret a, [], s => some (s, .ok a)
  | raise e, [], s => some (s, .error e)
  | call c k, ω :: ωs, s => (exec c ω s).bind fun x => run exec (k x.2) ωs x.1
  | _, _, _ => none

section Run

variable {S Ω : Type} {exec : (c : C) → Ω → S → Option (S × Except ε (R c))} {ωs : List Ω}
  {s : S} {x : S × Except ε α}

theorem run_ret {a : α} : (ret a).run exec ωs s = some x ↔ ωs = [] ∧ x = (s, .ok a) := by
  cases ωs with
  | nil => simp [run, eq_comm]
  | cons ω ωs => simp [run]

theorem run_raise {e : ε} : (raise e).run exec ωs s = some x ↔ ωs = [] ∧ x = (s, .error e) := by
  cases ωs with
  | nil => simp [run, eq_comm]
  | cons ω ωs => simp [run]

/-- A call takes the first choice; what follows it depends on its answer. -/
theorem run_perform_bind {c : C} {f : R c → Prog C R ε α} :
    (perform c >>= f).run exec ωs s = some x ↔
      ∃ ω ωs' s' r, ωs = ω :: ωs' ∧ exec c ω s = some (s', r) ∧
        match r with
        | .ok a => (f a).run exec ωs' s' = some x
        | .error e => ωs' = [] ∧ x = (s', .error e) := by
  show run exec (call c fun r => bind (match r with
    | .ok a => ret a
    | .error e => raise e) f) ωs s = some x ↔ _
  cases ωs with
  | nil => simp [run]
  | cons ω ωs =>
    rw [run, Option.bind_eq_some_iff]
    constructor
    · rintro ⟨⟨s', r⟩, hexec, hrun⟩
      refine ⟨ω, ωs, s', r, rfl, hexec, ?_⟩
      cases r with
      | ok a => exact hrun
      | error e => exact run_raise.mp hrun
    · rintro ⟨ω', ωs', s', r, heq, hexec, hrun⟩
      cases heq
      refine ⟨(s', r), hexec, ?_⟩
      cases r with
      | ok a => exact hrun
      | error e => exact run_raise.mpr hrun

/-- The environment, as far as its calls succeed. -/
def succeeding (exec : (c : C) → Ω → S → Option (S × Except ε (R c))) (c : C) (ω : Ω) (s : S) :
    Option (S × Except ε (R c)) := (exec c ω s).filter fun x => x.2.isOk

/-- In a run in which every call succeeds, a call is followed by what is done with its answer. -/
theorem run_succeeding_bind {c : C} {f : R c → Prog C R ε α} :
    (perform c >>= f).run (succeeding exec) ωs s = some x ↔
      ∃ ω ωs' s' a, ωs = ω :: ωs' ∧ exec c ω s = some (s', .ok a) ∧
        (f a).run (succeeding exec) ωs' s' = some x := by
  rw [run_perform_bind]
  constructor
  · rintro ⟨ω, ωs', s', r, hωs, hexec, hrun⟩
    obtain ⟨hexec, hok⟩ := Option.filter_eq_some_iff.mp hexec
    cases r with
    | error e => cases hok
    | ok a => exact ⟨ω, ωs', s', a, hωs, hexec, hrun⟩
  · rintro ⟨ω, ωs', s', a, hωs, hexec, hrun⟩
    exact ⟨ω, ωs', s', .ok a, hωs, Option.filter_eq_some_iff.mpr ⟨hexec, rfl⟩, hrun⟩

end Run

/-! ## Calls a program is bound to make -/

/-- On every path the program makes the call. -/
def Will (c₀ : C) : Prog C R ε α → Prop
  | ret _ => False
  | raise _ => False
  | call c k => c = c₀ ∨ ∀ r, Will c₀ (k r)

/-- On every path the program makes the call after the one it is about to make. -/
def Later (c₀ : C) : Prog C R ε α → Prop
  | call _ k => ∀ r, Will c₀ (k r)
  | _ => False

theorem will_iff {c₀ : C} {p : Prog C R ε α} :
    p.Will c₀ ↔ p.head? = some c₀ ∨ p.Later c₀ := by
  cases p with
  | ret a => exact ⟨False.elim, fun h => h.elim (fun h => nomatch h) id⟩
  | raise e => exact ⟨False.elim, fun h => h.elim (fun h => nomatch h) id⟩
  | call c k =>
    show c = c₀ ∨ _ ↔ some c = some c₀ ∨ _
    rw [Option.some.injEq]
    exact Iff.rfl

/-- What a program is bound to do is left to do after another call. -/
theorem Will.answer {c₀ c : C} {k : Except ε (R c) → Prog C R ε α} (h : (call c k).Will c₀)
    (hc : c ≠ c₀) (r : Except ε (R c)) : (k r).Will c₀ := by
  rcases h with heq | hlater
  · exact absurd heq hc
  · exact hlater r

/-! ## Monitors -/

/-- A ghost state machine over the calls of a program. -/
structure Monitor (C : Type) (R : C → Type) (ε G : Type) where
  /-- The calls allowed in a ghost state. -/
  ok : G → C → Prop
  /-- The ghost state after a call and its answer. -/
  next : G → (c : C) → Except ε (R c) → G

/-- Every call on every path is allowed, and the program ends in a ghost state meeting `Q`. -/
def Obeys (M : Monitor C R ε G) (Q : Except ε α → G → Prop) : G → Prog C R ε α → Prop
  | g, ret a => Q (.ok a) g
  | g, raise e => Q (.error e) g
  | g, call c k => M.ok g c ∧ ∀ r, Obeys M Q (M.next g c r) (k r)

variable {M : Monitor C R ε G} {g : G}

theorem obeys_call {Q : Except ε α → G → Prop} {c : C} {k : Except ε (R c) → Prog C R ε α} :
    Obeys M Q g (call c k) ↔ M.ok g c ∧ ∀ r, Obeys M Q (M.next g c r) (k r) := Iff.rfl

theorem Obeys.mono {Q Q' : Except ε α → G → Prop} (h : ∀ r g, Q r g → Q' r g)
    {p : Prog C R ε α} (hp : Obeys M Q g p) : Obeys M Q' g p := by
  induction p generalizing g with
  | ret a => exact h _ _ hp
  | raise e => exact h _ _ hp
  | call c k ih => exact ⟨hp.1, fun r => ih r (hp.2 r)⟩

/-- Sequencing: the second program starts in the ghost state the first one ends in. -/
theorem obeys_bind {Q : Except ε β → G → Prop} {p : Prog C R ε α} {f : α → Prog C R ε β} :
    Obeys M Q g (p >>= f) ↔
      Obeys M (fun r g' => match r with
        | .ok a => Obeys M Q g' (f a)
        | .error e => Q (.error e) g') g p := by
  induction p generalizing g with
  | ret a => exact Iff.rfl
  | raise e => exact Iff.rfl
  | call c k ih => exact and_congr Iff.rfl (forall_congr' fun r => ih r)

/-- Exception handling: the handler starts in the ghost state the exception left. -/
theorem obeys_tryCatch {Q : Except ε α → G → Prop} {p : Prog C R ε α}
    {h : ε → Prog C R ε α} :
    Obeys M Q g (tryCatch p h) ↔
      Obeys M (fun r g' => match r with
        | .ok a => Q (.ok a) g'
        | .error e => Obeys M Q g' (h e)) g p := by
  induction p generalizing g with
  | ret a => exact Iff.rfl
  | raise e => exact Iff.rfl
  | call c k ih => exact and_congr Iff.rfl (forall_congr' fun r => ih r)

/-- A single call: allowed now, and the continuation is judged answer by answer. -/
theorem obeys_perform {c : C} {Q : Except ε (R c) → G → Prop} :
    Obeys M Q g (perform c) ↔ M.ok g c ∧ ∀ r, Q r (M.next g c r) := by
  constructor
  · rintro ⟨hok, hk⟩
    refine ⟨hok, fun r => ?_⟩
    cases r with
    | ok a => exact hk (.ok a)
    | error e => exact hk (.error e)
  · rintro ⟨hok, hk⟩
    refine ⟨hok, fun r => ?_⟩
    cases r with
    | ok a => exact hk (.ok a)
    | error e => exact hk (.error e)

/-- A call and what follows its answer; its exception ends the program. -/
theorem obeys_perform_bind {c : C} {f : R c → Prog C R ε β} {Q : Except ε β → G → Prop} :
    Obeys M Q g (perform c >>= f) ↔
      M.ok g c ∧ (∀ a, Obeys M Q (M.next g c (.ok a)) (f a)) ∧
        ∀ e, Q (.error e) (M.next g c (.error e)) := by
  rw [obeys_bind, obeys_perform]
  refine and_congr Iff.rfl ⟨fun h => ⟨fun a => h (.ok a), fun e => h (.error e)⟩, fun h r => ?_⟩
  cases r with
  | ok a => exact h.1 a
  | error e => exact h.2 e

/-- A call that begins the first part of a sequence. -/
theorem obeys_perform_bind_bind {γ : Type} {c : C} {f : R c → Prog C R ε β}
    {h : β → Prog C R ε γ} {Q : Except ε γ → G → Prop} :
    Obeys M Q g (perform c >>= f >>= h) ↔
      M.ok g c ∧ (∀ a, Obeys M Q (M.next g c (.ok a)) (f a >>= h)) ∧
        ∀ e, Q (.error e) (M.next g c (.error e)) := by
  rw [bind_assoc_eq]
  exact obeys_perform_bind

/-- What an obedient program is about to call is allowed. -/
theorem Obeys.head_ok {Q : Except ε α → G → Prop} {p : Prog C R ε α} (hp : Obeys M Q g p)
    {c : C} (hc : p.head? = some c) : M.ok g c := by
  cases p with
  | ret a => cases hc
  | raise e => cases hc
  | call c' k =>
    cases hc
    exact hp.1

/-- A second monitor that keeps a relation to one that the program obeys. -/
theorem Obeys.simulate {G' : Type} {M' : Monitor C R ε G'} (rel : G → G' → Prop)
    {Q : Except ε α → G → Prop} {Q' : Except ε α → G' → Prop}
    (hstep : ∀ g g' c, M.ok g c → rel g g' →
      M'.ok g' c ∧ ∀ r, rel (M.next g c r) (M'.next g' c r))
    (hend : ∀ r g g', Q r g → rel g g' → Q' r g') {p : Prog C R ε α} (hp : Obeys M Q g p) {g' : G'}
    (hrel : rel g g') : Obeys M' Q' g' p := by
  induction p generalizing g g' with
  | ret a => exact hend _ _ _ hp hrel
  | raise e => exact hend _ _ _ hp hrel
  | call c k ih =>
    obtain ⟨hok, hnext⟩ := hstep g g' c hp.1 hrel
    exact ⟨hok, fun r => ih r (hp.2 r) (hnext r)⟩

/-- **Duties.** A duty that only a call discharges, and that is discharged at the end, makes the
program bound to make the call. -/
theorem Obeys.will {c₀ : C} {owes : G → Prop}
    (hkeep : ∀ g c r, owes g → c ≠ c₀ → owes (M.next g c r)) {Q : Except ε α → G → Prop}
    (hend : ∀ r g, Q r g → ¬ owes g) {p : Prog C R ε α} (hp : Obeys M Q g p) (ho : owes g) :
    p.Will c₀ := by
  induction p generalizing g with
  | ret a => exact absurd ho (hend _ _ hp)
  | raise e => exact absurd ho (hend _ _ hp)
  | call c k ih =>
    by_cases hc : c = c₀
    · exact .inl hc
    · exact .inr fun r => ih r (hp.2 r) (hkeep g c r ho hc)

/-- **Sequential runs.** A relation between ghost state and environment that every allowed call
keeps holds at the end of the run. -/
theorem Obeys.eval {S : Type} {answer : (c : C) → S → S × Except ε (R c)} {I : G → S → Prop}
    (hstep : ∀ g c s, M.ok g c → I g s → I (M.next g c (answer c s).2) (answer c s).1)
    {Q : Except ε α → G → Prop} {p : Prog C R ε α} {s : S} (hp : Obeys M Q g p) (hs : I g s) :
    ∃ g', I g' (p.eval answer s).1 ∧ Q (p.eval answer s).2 g' := by
  induction p generalizing g s with
  | ret a => exact ⟨g, hs, hp⟩
  | raise e => exact ⟨g, hs, hp⟩
  | call c k ih => exact ih _ (hp.2 _) (hstep g c s hp.1 hs)

/-! ## Programs as parts of a larger system -/

section Embed

variable {C' : Type} {R' : C' → Type} {f : C → C'}
  {read : ∀ c, Except ε (R' (f c)) → Except ε (R c)}

/-- The program, with its calls among those of a larger system. -/
def embed (f : C → C') (read : ∀ c, Except ε (R' (f c)) → Except ε (R c)) :
    Prog C R ε α → Prog C' R' ε α
  | ret a => ret a
  | raise e => raise e
  | call c k => call (f c) fun r => embed f read (k (read c r))

/-- A monitor that sees the calls of the larger system as one of the part sees the part's own. -/
theorem Obeys.embed {G' : Type} (M' : Monitor C' R' ε G') (i : G → G')
    (hok : ∀ g c, M.ok g c → M'.ok (i g) (f c))
    (hnext : ∀ g c r, M'.next (i g) (f c) r = i (M.next g c (read c r)))
    {Q : Except ε α → G' → Prop} {p : Prog C R ε α} (hp : p.Obeys M (fun r g => Q r (i g)) g) :
    (p.embed f read).Obeys M' Q (i g) := by
  induction p generalizing g with
  | ret a => exact hp
  | raise e => exact hp
  | call c k ih =>
    refine ⟨hok g c hp.1, fun r => ?_⟩
    rw [hnext]
    exact ih _ (hp.2 _)

end Embed

end Prog

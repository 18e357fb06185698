import SocialNetwork.Lib.Service

/-!
# Assertions about a shared store

A request follows a monitor, and each ghost state of the monitor asserts something about the store.
An assertion that the request's own calls establish and the calls of all requests keep holds whenever
the request is in that ghost state, whatever happens in between (`asserted_at`). From it follows who
has put what into the store (`provenance`).
-/

namespace Service

variable {L C : Type} {R : C → Type} {ε α S Ω G ρ : Type}

/-- What the requests of a service may rely on, ghost state by ghost state. -/
structure Assertions (srv : Spec L C R ε α S Ω) (G : Type) where
  monitor : L → Prog.Monitor C R ε G
  start : L → G
  holds : L → G → S → Prop
  ended : L → Except ε α → G → Prop
  obeys : ∀ l, (srv.handle l).Obeys (monitor l) (ended l) (start l)
  holds_start : ∀ l s, holds l (start l) s
  /-- The request's own call. -/
  own : ∀ {l g ω c s s' x}, (monitor l).ok g c → holds l g s → srv.execute ω c s = some (s', x) →
    holds l ((monitor l).next g c x) s'
  /-- A call of the request that has failed. -/
  failed : ∀ {l g c s}, (monitor l).ok g c → holds l g s →
    holds l ((monitor l).next g c (.error srv.failure)) s
  /-- A call of any request. -/
  stable : ∀ {l g ω c s s' x}, holds l g s → srv.execute ω c s = some (s', x) → holds l g s'

namespace Assertions

variable {srv : Spec L C R ε α S Ω} (A : Assertions srv G) {s₀ : S} {as : List (Action L Ω)}
  {s s' m : State L C R ε α S} {n : Nat}

/-- However a call ends, what is asserted after it holds. -/
theorem holds_next {l : L} {g : G} {c : C} {o : Outcome Ω} {t t' : S} {x : Except ε (R c)}
    (hok : (A.monitor l).ok g c) (h : A.holds l g t) (hexec : srv.exec c o t = some (t', x)) :
    A.holds l ((A.monitor l).next g c x) t' := by
  rcases exec_cases hexec with ⟨ω, -, hω⟩ | ⟨rfl, hsame | ⟨ω, y, hω⟩⟩
  · exact A.own hok h hω
  · rw [hsame]
    exact A.failed hok h
  · exact A.stable (A.failed hok h) hω

/-- However a call ends, what was asserted still holds. -/
theorem holds_stable {l : L} {g : G} {c : C} {o : Outcome Ω} {t t' : S} {x : Except ε (R c)}
    (h : A.holds l g t) (hexec : srv.exec c o t = some (t', x)) : A.holds l g t' := by
  rcases exec_cases hexec with ⟨ω, -, hω⟩ | ⟨-, hsame | ⟨ω, y, hω⟩⟩
  · exact A.stable h hω
  · rw [hsame]
    exact h
  · exact A.stable h hω

/-- The request follows its monitor, and what its ghost state asserts holds. -/
def Follows (t : S) (task : Task L C R ε α) : Prop :=
  ∃ g, task.prog.Obeys (A.monitor task.label) (A.ended task.label) g ∧ A.holds task.label g t

/-- Every request follows its monitor, and every answer was given where its monitor ended. -/
structure Asserted (s : State L C R ε α S) : Prop where
  tasks : ∀ task ∈ s.tasks, A.Follows s.shared.store task
  answered : ∀ l r, (l, r) ∈ s.shared.answered → ∃ g, A.ended l r g ∧ A.holds l g s.shared.store

/-- **Steps.** -/
theorem Asserted.step {A : Assertions srv G} (h : A.Asserted s) {a : Action L Ω}
    (hstep : srv.step s a = some s') : A.Asserted s' := by
  cases a with
  | request l =>
    cases hstep
    refine ⟨fun task htask => ?_, h.answered⟩
    rcases List.mem_append.mp htask with htask | htask
    · exact h.tasks task htask
    · rw [List.mem_singleton.mp htask]
      exact ⟨A.start l, A.obeys l, A.holds_start l _⟩
  | call i o =>
    obtain ⟨task, c, k, x, hi, hprog, hexec, hsame, hset⟩ := call_eq_some hstep
    constructor
    · intro t ht
      rw [hset] at ht
      rcases List.mem_or_eq_of_mem_set ht with ht | rfl
      -- the other requests: what they rely on is not destroyed by a statement of this one
      · obtain ⟨g, hobeys, hholds⟩ := h.tasks t ht
        exact ⟨g, hobeys, A.holds_stable hholds hexec⟩
      · obtain ⟨g, hobeys, hholds⟩ := h.tasks task (List.mem_of_getElem? hi)
        rw [hprog] at hobeys
        exact ⟨_, hobeys.2 x, A.holds_next hobeys.1 hholds hexec⟩
    · intro l r hr
      rw [hsame] at hr
      obtain ⟨g, hended, hholds⟩ := h.answered l r hr
      exact ⟨g, hended, A.holds_stable hholds hexec⟩
  | finish i =>
    obtain ⟨task, r, hi, hended, hsame, hanswered, herase⟩ := finish_eq_some hstep
    constructor
    · intro t ht
      rw [herase] at ht
      rw [hsame]
      exact h.tasks t (List.mem_of_mem_eraseIdx ht)
    · intro l r' hr
      rw [hanswered] at hr
      rw [hsame]
      rcases List.mem_append.mp hr with hr | hr
      · exact h.answered l r' hr
      · cases List.mem_singleton.mp hr
        obtain ⟨g, hobeys, hholds⟩ := h.tasks task (List.mem_of_getElem? hi)
        exact ⟨g, ended_of_outcome hobeys hended, hholds⟩

/-- **Assertions.** They hold at every moment of a run. -/
theorem asserted_at (hm : Runs.At srv.step (init s₀) as n m) : A.Asserted m :=
  Runs.exec_preserves (I := A.Asserted) (fun _ _ _ h hstep => h.step hstep)
    ⟨fun _ h => absurd h List.not_mem_nil, fun _ _ h => absurd h List.not_mem_nil⟩ hm.2

/-! ## Who has put what into the store -/

/-- The entry was there at the start, or a request that arrived before the moment accounts for it. -/
def Explained (Has : S → ρ → Prop) (Explains : L → ρ → S → Prop) (s₀ : S) (as : List (Action L Ω))
    (n : Nat) (t : S) (row : ρ) : Prop :=
  Has s₀ row ∨ ∃ i < n, ∃ l, as[i]? = some (.request l) ∧ Explains l row t

variable {Has : S → ρ → Prop} {Explains : L → ρ → S → Prop}

theorem Explained.next {t t' : S} {row : ρ} (h : Explained Has Explains s₀ as n t row)
    (hkeep : ∀ l, Explains l row t → Explains l row t') :
    Explained Has Explains s₀ as (n + 1) t' row := by
  rcases h with h | ⟨i, hi, l, harrived, hexplains⟩
  · exact .inl h
  · exact .inr ⟨i, by omega, l, harrived, hkeep l hexplains⟩

/-- **Provenance.** When a call adds only what its request accounts for, every entry of the store at
any moment was there at the start or is accounted for by a request that arrived before. -/
theorem provenance (Has : S → ρ → Prop) (Explains : L → ρ → S → Prop)
    (hcall : ∀ {l g ω c s s' x row}, (A.monitor l).ok g c → A.holds l g s →
      srv.execute ω c s = some (s', x) → Has s' row → Has s row ∨ Explains l row s')
    (hstable : ∀ {l ω c s s' x row}, srv.execute ω c s = some (s', x) → Explains l row s →
      Explains l row s')
    (hm : Runs.At srv.step (init s₀) as n m) {row : ρ} (h : Has m.shared.store row) :
    Explained Has Explains s₀ as n m.shared.store row := by
  have hlength : (as.take n).length = n := by
    rw [List.length_take]
    exact Nat.min_eq_left hm.1
  have hall := Runs.exec_moments (I := fun n m => ∀ row, Has m.shared.store row →
      Explained Has Explains s₀ as n m.shared.store row) (fun row h => .inl h) ?_ hm.2
  · rw [hlength] at hall
    exact hall row h
  · intro n' a m₁ m₂ hm₁ ha hstep hm₂ hI row hrow
    cases a with
    | request l =>
      cases hstep
      exact (hI row hrow).next fun _ h => h
    | call i o =>
      obtain ⟨task, c, k, x, hi, hprog, hexec, -⟩ := call_eq_some hstep
      have htask := List.mem_of_getElem? hi
      -- the request that makes the call has arrived, and relies on what its ghost state asserts
      obtain ⟨i₀, hi₀, harrived⟩ := arrived_of_mem hm₁.of_take htask
      obtain ⟨g, hobeys, hholds⟩ := (A.asserted_at hm₁).tasks task htask
      rw [hprog] at hobeys
      have hadded : ∀ {ω y}, srv.execute ω c m₁.shared.store = some (m₂.shared.store, y) →
          Explained Has Explains s₀ as (n' + 1) m₂.shared.store row := by
        intro ω y hω
        rcases hcall hobeys.1 hholds hω hrow with hold | hnew
        · exact (hI row hold).next fun _ => hstable hω
        · exact .inr ⟨i₀, by omega, task.label, harrived, hnew⟩
      rcases exec_cases hexec with ⟨ω, -, hω⟩ | ⟨-, hsame | ⟨ω, y, hω⟩⟩
      · exact hadded hω
      · rw [hsame] at hrow ⊢
        exact (hI row hrow).next fun _ h => h
      · exact hadded hω
    | finish i =>
      obtain ⟨task, r, -, -, hsame, -⟩ := finish_eq_some hstep
      rw [hsame] at hrow ⊢
      exact (hI row hrow).next fun _ h => h

end Assertions

end Service

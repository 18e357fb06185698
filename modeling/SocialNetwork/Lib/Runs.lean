import Mathlib.Data.List.Basic
import Mathlib.Data.List.Induction
import Mathlib.Tactic.Basic

/-!
# Runs of a partial step function

A system is given by a step function `step : σ → α → Option σ`: the action `a` carries
every choice the environment makes, and `none` says that `a` is not enabled. A run is a
list of actions performed one after the other.

* `exec`, the state at the end of a run;
* `Meets`, "every step of the run meets a condition in the state it starts from";
* the invariant rule `exec_invariant` and its two-state version `exec_relation`;
* `exec_history`, the rule for relations between the state and the run so far;
* `outputs`, what the steps put out, with the rule `exec_outputs`.
-/

namespace Runs

variable {σ α : Type}

/-- The state after performing the actions in order. -/
def exec (step : σ → α → Option σ) : σ → List α → Option σ
  | s, [] => some s
  | s, a :: as => (step s a).bind fun s' => exec step s' as

/-- Every action of the run meets `ok` in the state it is performed in. -/
def Meets (step : σ → α → Option σ) (ok : σ → α → Prop) : σ → List α → Prop
  | _, [] => True
  | s, a :: as => ok s a ∧ ∀ s', step s a = some s' → Meets step ok s' as

variable {step : σ → α → Option σ} {ok : σ → α → Prop}

@[simp] theorem exec_nil (s : σ) : exec step s [] = some s := rfl

theorem exec_cons (s : σ) (a : α) (as : List α) :
    exec step s (a :: as) = (step s a).bind fun s' => exec step s' as := rfl

theorem exec_cons_eq_some {s s' : σ} {a : α} {as : List α} :
    exec step s (a :: as) = some s' ↔ ∃ m, step s a = some m ∧ exec step m as = some s' := by
  rw [exec_cons, Option.bind_eq_some_iff]

/-- Whether a run meets a decidable condition is decided by performing it. -/
instance Meets.decidable [∀ s a, Decidable (ok s a)] :
    (s : σ) → (as : List α) → Decidable (Meets step ok s as)
  | _, [] => isTrue trivial
  | s, a :: as =>
    match hs : step s a with
    | none => decidable_of_iff (ok s a)
        ⟨fun h => ⟨h, fun _ h' => nomatch hs.symm.trans h'⟩, fun h => h.1⟩
    | some m =>
      have := Meets.decidable m as
      decidable_of_iff (ok s a ∧ Meets step ok m as)
        ⟨fun h => ⟨h.1, fun _ h' => Option.some.inj (hs.symm.trans h') ▸ h.2⟩,
          fun h => ⟨h.1, h.2 m hs⟩⟩

/-- A condition that always holds is met by every run. -/
theorem meets_of_forall (h : ∀ s a, ok s a) (s : σ) (as : List α) : Meets step ok s as := by
  induction as generalizing s with
  | nil => trivial
  | cons a as ih => exact ⟨h s a, fun s' _ => ih s'⟩

/-- A condition on the actions alone is met when every action satisfies it. -/
theorem meets_of_mem {P : α → Prop} {as : List α} (h : ∀ a ∈ as, P a) (s : σ) :
    Meets step (fun _ a => P a) s as := by
  induction as generalizing s with
  | nil => trivial
  | cons a as ih =>
    exact ⟨h a (List.mem_cons_self ..), fun s' _ =>
      ih (fun b hb => h b (List.mem_cons_of_mem _ hb)) s'⟩

theorem Meets.and {ok' : σ → α → Prop} {s : σ} {as : List α} (h : Meets step ok s as)
    (h' : Meets step ok' s as) : Meets step (fun s a => ok s a ∧ ok' s a) s as := by
  induction as generalizing s with
  | nil => trivial
  | cons a as ih => exact ⟨⟨h.1, h'.1⟩, fun s' hs => ih (h.2 s' hs) (h'.2 s' hs)⟩

theorem Meets.mono {ok' : σ → α → Prop} (h : ∀ s a, ok s a → ok' s a) {s : σ} {as : List α}
    (hm : Meets step ok s as) : Meets step ok' s as := by
  induction as generalizing s with
  | nil => trivial
  | cons a as ih => exact ⟨h s a hm.1, fun s' hs => ih (hm.2 s' hs)⟩

/-- **Invariant rule.** What holds at the start and is kept by every step that meets the
condition holds at the end of every run whose steps meet it. -/
theorem exec_invariant {I : σ → Prop}
    (hstep : ∀ s a s', I s → ok s a → step s a = some s' → I s')
    {s s' : σ} {as : List α} (hs : I s) (hm : Meets step ok s as)
    (hrun : exec step s as = some s') : I s' := by
  induction as generalizing s with
  | nil =>
    cases hrun
    exact hs
  | cons a as ih =>
    obtain ⟨m, ha, hrest⟩ := exec_cons_eq_some.mp hrun
    exact ih (hstep s a m hs hm.1 ha) (hm.2 m ha) hrest

/-- What holds at the start and is kept by every step holds at the end of every run. -/
theorem exec_preserves {I : σ → Prop} (hstep : ∀ s a s', I s → step s a = some s' → I s')
    {s s' : σ} {as : List α} (hs : I s) (hrun : exec step s as = some s') : I s' :=
  exec_invariant (fun s a s' hI _ h => hstep s a s' hI h) hs
    (meets_of_forall (fun _ _ => trivial) s as) hrun

/-- A condition that an invariant implies is met by every run that keeps the invariant. -/
theorem Meets.of_invariant {ok' : σ → α → Prop} {I : σ → Prop}
    (hstep : ∀ s a s', I s → ok s a → step s a = some s' → I s') (h : ∀ s a, I s → ok s a → ok' s a)
    {s : σ} {as : List α} (hs : I s) (hm : Meets step ok s as) : Meets step ok' s as := by
  induction as generalizing s with
  | nil => trivial
  | cons a as ih =>
    exact ⟨h s a hs hm.1, fun s' hs' => ih (hstep s a s' hs hm.1 hs') (hm.2 s' hs')⟩

/-- **Two-state rule.** A reflexive and transitive relation that every step respects, under
an invariant, relates the two ends of every run. -/
theorem exec_relation {I : σ → Prop} {Q : σ → σ → Prop} (hrefl : ∀ s, Q s s)
    (htrans : ∀ a b c, Q a b → Q b c → Q a c)
    (hstep : ∀ s a s', I s → ok s a → step s a = some s' → I s' ∧ Q s s')
    {s s' : σ} {as : List α} (hs : I s) (hm : Meets step ok s as)
    (hrun : exec step s as = some s') : Q s s' := by
  induction as generalizing s with
  | nil =>
    cases hrun
    exact hrefl _
  | cons a as ih =>
    obtain ⟨m, ha, hrest⟩ := exec_cons_eq_some.mp hrun
    obtain ⟨hI, hQ⟩ := hstep s a m hs hm.1 ha
    exact htrans _ m _ hQ (ih hI (hm.2 m ha) hrest)

/-- **Exactness rule.** When a step keeps a property just if it meets the condition, and none
restores it, a run keeps the property just if all its steps meet the condition. -/
theorem exec_iff {I P : σ → Prop}
    (hstep : ∀ s a s', I s → step s a = some s' → I s' ∧ (P s' ↔ P s ∧ ok s a))
    {s s' : σ} {as : List α} (hs : I s) (hrun : exec step s as = some s') :
    P s' ↔ P s ∧ Meets step ok s as := by
  induction as generalizing s with
  | nil =>
    cases hrun
    exact ⟨fun h => ⟨h, trivial⟩, fun h => h.1⟩
  | cons a as ih =>
    obtain ⟨m, ha, hrest⟩ := exec_cons_eq_some.mp hrun
    obtain ⟨hm, hiff⟩ := hstep s a m hs ha
    rw [ih hm hrest, hiff, and_assoc]
    refine and_congr Iff.rfl (and_congr Iff.rfl ⟨fun h m' hm' => ?_, fun h => h m ha⟩)
    rw [← Option.some.inj (ha.symm.trans hm')]
    exact h

/-- **Exactness rule for all states.** When a step from a state with a property leads to one just
if it meets the condition, every state of a run has the property just if all its steps meet the
condition. -/
theorem forall_states_iff {I P : σ → Prop}
    (hstep : ∀ s a s', I s → P s → step s a = some s' → I s' ∧ (P s' ↔ ok s a))
    {s s' : σ} {as : List α} (hs : I s) (hP : P s) (hrun : exec step s as = some s') :
    (∀ before after m, as = before ++ after → exec step s before = some m → P m) ↔
      Meets step ok s as := by
  induction as generalizing s with
  | nil =>
    refine ⟨fun _ => trivial, fun _ before after m heq hm => ?_⟩
    rw [(List.append_eq_nil_iff.mp heq.symm).1] at hm
    exact Option.some.inj hm ▸ hP
  | cons a as ih =>
    obtain ⟨m₁, ha, hrest⟩ := exec_cons_eq_some.mp hrun
    obtain ⟨hI, hiff⟩ := hstep s a m₁ hs hP ha
    constructor
    · intro hall
      -- the state after the first action is one of the states
      have hm₁ : P m₁ := by
        refine hall [a] as m₁ rfl ?_
        rw [exec_cons, ha]
        rfl
      refine ⟨hiff.mp hm₁, fun s₁ hs₁ => ?_⟩
      rw [← Option.some.inj (ha.symm.trans hs₁)]
      refine (ih hI hm₁ hrest).mp fun before after m heq hm => hall (a :: before) after m ?_ ?_
      · rw [heq, List.cons_append]
      · rw [exec_cons, ha]
        exact hm
    · rintro ⟨hok, hmeets⟩ before after m heq hm
      have hm₁ : P m₁ := hiff.mpr hok
      cases before with
      | nil => exact Option.some.inj hm ▸ hP
      | cons b before =>
        rw [List.cons_append] at heq
        obtain ⟨rfl, hafter⟩ := List.cons.inj heq
        rw [exec_cons, ha] at hm
        exact (ih hI hm₁ hrest).mpr (hmeets m₁ ha) before after m hafter hm

/-! ## Runs that go on -/

theorem exec_append (s : σ) (as bs : List α) :
    exec step s (as ++ bs) = (exec step s as).bind fun m => exec step m bs := by
  induction as generalizing s with
  | nil => rfl
  | cons a as ih =>
    rw [List.cons_append, exec_cons, exec_cons, Option.bind_assoc]
    exact congrArg (Option.bind (step s a)) (funext fun m => ih m)

/-- A run ends with a step, if it has one. -/
theorem exec_concat_eq_some {s s' : σ} {as : List α} {a : α} :
    exec step s (as ++ [a]) = some s' ↔ ∃ m, exec step s as = some m ∧ step m a = some s' := by
  rw [exec_append, Option.bind_eq_some_iff]
  refine exists_congr fun m => and_congr_right fun _ => ?_
  rw [exec_cons]
  exact Eq.congr_left (Option.bind_fun_some (step m a))

/-- **History rule.** A relation between the state and the run so far, kept by every step, holds at
the end of the run. -/
theorem exec_history {s : σ} {I : σ → List α → Prop}
    (hstep : ∀ m a m' as, exec step s as = some m → I m as → step m a = some m' → I m' (as ++ [a]))
    (hs : I s []) {s' : σ} {as : List α} (hrun : exec step s as = some s') : I s' as := by
  induction as using List.reverseRecOn generalizing s' with
  | nil =>
    cases hrun
    exact hs
  | append_singleton as a ih =>
    obtain ⟨m, hm, ha⟩ := exec_concat_eq_some.mp hrun
    exact hstep m a s' as hm (ih hm) ha

/-- The state after the first `n` actions of the run. -/
def At (step : σ → α → Option σ) (s : σ) (as : List α) (n : Nat) (m : σ) : Prop :=
  n ≤ as.length ∧ exec step s (as.take n) = some m

/-- What has happened is not changed by what follows. -/
theorem At.concat {s m : σ} {as : List α} {n : Nat} (h : At step s as n m) (a : α) :
    At step s (as ++ [a]) n m := by
  obtain ⟨hn, hrun⟩ := h
  refine ⟨?_, ?_⟩
  · rw [List.length_append]
    omega
  · rw [List.take_append_of_le_length hn]
    exact hrun

theorem at_length {s m : σ} {as : List α} (h : exec step s as = some m) :
    At step s as as.length m := by
  refine ⟨Nat.le_refl _, ?_⟩
  rw [List.take_length]
  exact h

/-- A moment of a part of the run is one of the run. -/
theorem At.of_take {s m : σ} {as : List α} {n k : Nat} (h : At step s (as.take k) n m) :
    At step s as n m := by
  obtain ⟨hn, hrun⟩ := h
  rw [List.length_take] at hn
  refine ⟨by omega, ?_⟩
  rw [List.take_take, Nat.min_eq_left (by omega)] at hrun
  exact hrun

/-- Between two moments there is a run. -/
theorem At.exec {s m m' : σ} {as : List α} {n n' : Nat} (h : At step s as n m)
    (h' : At step s as n' m') (hn : n ≤ n') : ∃ bs, exec step m bs = some m' := by
  refine ⟨(as.take n').drop n, ?_⟩
  have hsplit : as.take n ++ (as.take n').drop n = as.take n' := by
    rw [← Nat.min_eq_left hn, ← List.take_take, Nat.min_eq_left hn]
    exact List.take_append_drop n (as.take n')
  have hrun := h'.2
  rw [← hsplit, exec_append, h.2] at hrun
  exact hrun

/-- A run has a state at each of its moments. -/
theorem exists_at {s s' : σ} {as : List α} (hrun : Runs.exec step s as = some s') {n : Nat}
    (hn : n ≤ as.length) : ∃ m, At step s as n m := by
  rw [← List.take_append_drop n as, exec_append] at hrun
  obtain ⟨m, hm, -⟩ := Option.bind_eq_some_iff.mp hrun
  exact ⟨m, hn, hm⟩

/-- **Moment rule.** What holds at the first moment, and goes from each moment to the next, holds at
the last. -/
theorem exec_moments {I : Nat → σ → Prop} {s s' : σ} {as : List α} (hs : I 0 s)
    (hstep : ∀ n a m m', At step s as n m → as[n]? = some a → step m a = some m' →
      At step s as (n + 1) m' → I n m → I (n + 1) m')
    (hrun : Runs.exec step s as = some s') : I as.length s' := by
  have hall : ∀ n m, At step s as n m → I n m := by
    intro n
    induction n with
    | zero =>
      intro m hm
      have hzero := hm.2
      rw [List.take_zero] at hzero
      cases hzero
      exact hs
    | succ n ih =>
      intro m' hm'
      have hlt : n < as.length := hm'.1
      obtain ⟨m, hm⟩ := exists_at hrun (Nat.le_of_lt hlt)
      have hnext := hm'.2
      rw [List.take_succ_eq_append_getElem hlt, exec_append, hm.2] at hnext
      obtain ⟨m₁, hm₁, heq⟩ := exec_cons_eq_some.mp hnext
      cases heq
      exact hstep n as[n] m m' hm (List.getElem?_eq_getElem hlt) hm₁ hm' (ih m hm)
  exact hall as.length s' (at_length hrun)

/-! ## What a run puts out -/

/-- What the steps of the run put out, in order. -/
def outputs {β : Type} (step : σ → α → Option σ) (out : σ → α → List β) : σ → List α → List β
  | _, [] => []
  | s, a :: as => out s a ++
    match step s a with
    | none => []
    | some s' => outputs step out s' as

theorem outputs_cons {β : Type} {out : σ → α → List β} {s m : σ} {a : α} (h : step s a = some m)
    (as : List α) : outputs step out s (a :: as) = out s a ++ outputs step out m as := by
  rw [outputs, h]

theorem outputs_append {β : Type} {out : σ → α → List β} {s m : σ} {as : List α}
    (h : exec step s as = some m) (bs : List α) :
    outputs step out s (as ++ bs) = outputs step out s as ++ outputs step out m bs := by
  induction as generalizing s with
  | nil =>
    cases h
    rfl
  | cons a as ih =>
    obtain ⟨m₁, ha, hrest⟩ := exec_cons_eq_some.mp h
    rw [List.cons_append, outputs_cons ha, outputs_cons ha, ih hrest, List.append_assoc]

theorem outputs_concat {β : Type} {out : σ → α → List β} {s m : σ} {as : List α}
    (h : exec step s as = some m) (a : α) :
    outputs step out s (as ++ [a]) = outputs step out s as ++ out m a := by
  rw [outputs_append h]
  cases ha : step m a with
  | none => rw [outputs, ha, List.append_nil]
  | some m' => rw [outputs_cons ha, outputs, List.append_nil]

/-- **Output rule.** A relation between the state and what has been put out so far, kept by every
step with what it puts out, holds at the end of the run. -/
theorem exec_outputs {β : Type} {out : σ → α → List β} {I : σ → List β → Prop}
    (hstep : ∀ s a s' bs, I s bs → step s a = some s' → I s' (bs ++ out s a))
    {s s' : σ} {as : List α} (hs : I s []) (hrun : exec step s as = some s') :
    I s' (outputs step out s as) := by
  have hgeneral : ∀ bs, I s bs → I s' (bs ++ outputs step out s as) := by
    clear hs
    induction as generalizing s with
    | nil =>
      intro bs hs
      cases hrun
      rw [outputs, List.append_nil]
      exact hs
    | cons a as ih =>
      intro bs hs
      obtain ⟨m, ha, hrest⟩ := exec_cons_eq_some.mp hrun
      rw [outputs_cons ha, ← List.append_assoc]
      exact ih hrest (bs ++ out s a) (hstep s a m bs hs ha)
  exact hgeneral [] hs

/-! ## Two runs side by side -/

/-- The system and a copy of it, each with its own action. -/
def both (step : σ → α → Option σ) (s : σ × σ) (a : α × α) : Option (σ × σ) :=
  (step s.1 a.1).bind fun s₁ => (step s.2 a.2).map fun s₂ => (s₁, s₂)

theorem both_eq_some {s s' : σ × σ} {a : α × α} :
    both step s a = some s' ↔ step s.1 a.1 = some s'.1 ∧ step s.2 a.2 = some s'.2 := by
  unfold both
  rw [Option.bind_eq_some_iff]
  constructor
  · rintro ⟨s₁, hfirst, hsecond⟩
    obtain ⟨s₂, hs₂, rfl⟩ := Option.map_eq_some_iff.mp hsecond
    exact ⟨hfirst, hs₂⟩
  · rintro ⟨h₁, h₂⟩
    exact ⟨s'.1, h₁, by rw [h₂]; rfl⟩

/-- A run of both is a run of each. -/
theorem exec_both {s s' : σ × σ} {as : List (α × α)} : exec (both step) s as = some s' ↔
    exec step s.1 (as.map Prod.fst) = some s'.1 ∧ exec step s.2 (as.map Prod.snd) = some s'.2 := by
  induction as generalizing s with
  | nil =>
    simp only [exec_nil, List.map_nil, Option.some.injEq]
    exact Prod.ext_iff
  | cons a as ih =>
    rw [List.map_cons, List.map_cons, exec_cons_eq_some, exec_cons_eq_some, exec_cons_eq_some]
    constructor
    · rintro ⟨m, hm, hrest⟩
      obtain ⟨h₁, h₂⟩ := both_eq_some.mp hm
      obtain ⟨h₁', h₂'⟩ := ih.mp hrest
      exact ⟨⟨m.1, h₁, h₁'⟩, m.2, h₂, h₂'⟩
    · rintro ⟨⟨m₁, h₁, h₁'⟩, m₂, h₂, h₂'⟩
      exact ⟨(m₁, m₂), both_eq_some.mpr ⟨h₁, h₂⟩, ih.mpr ⟨h₁', h₂'⟩⟩

end Runs

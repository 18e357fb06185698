import SocialNetwork.Lib.Roster
import SocialNetwork.Lib.Pool
import SocialNetwork.Lib.Runs

/-!
# Services on one store

A service handles requests by programs, and every call of a program is one atomic step on a store
that all requests share. A call may fail, before or after it took effect, and a request may stop
anywhere. `answered_told` says of every answer of a run how it came about: the request arrived, made
its calls at later and later moments, and each of them was answered as the store was then.
-/

namespace Service

variable {L C : Type} {R : C → Type} {ε α S Ω : Type}

/-- A service: the programs of its requests, what a call does and answers, `none` where the store may
not choose so, and the exception of a call that fails. -/
structure Spec (L C : Type) (R : C → Type) (ε α S Ω : Type) where
  handle : L → Prog C R ε α
  execute : Ω → (c : C) → S → Option (S × Except ε (R c))
  failure : ε

/-- How a call ends: it answers, or it fails after or before it took effect. -/
inductive Outcome (Ω : Type)
  | ok (ω : Ω)
  | raises (applied : Bool) (ω : Ω)
deriving DecidableEq

/-- The store, and the answers given. -/
structure World (L ε α S : Type) where
  store : S
  answered : List (L × Except ε α)

inductive Action (L Ω : Type)
  /-- A request arrives. -/
  | request (l : L)
  /-- The `i`-th request in flight makes its next call. -/
  | call (i : Nat) (o : Outcome Ω)
  /-- The `i`-th request is answered, or ends with an exception. -/
  | finish (i : Nat)

abbrev State (L C : Type) (R : C → Type) (ε α S : Type) :=
  Pool.Config (World L ε α S) L C R ε α Unit

abbrev Task (L C : Type) (R : C → Type) (ε α : Type) := Pool.Task L C R ε α Unit

def init (s : S) : State L C R ε α S := ⟨⟨s, []⟩, []⟩

namespace Spec

variable (srv : Spec L C R ε α S Ω)

/-- One call. -/
def exec (c : C) : Outcome Ω → S → Option (S × Except ε (R c))
  | .ok ω, s => srv.execute ω c s
  | .raises true ω, s => (srv.execute ω c s).map fun x => (x.1, .error srv.failure)
  | .raises false _, s => some (s, .error srv.failure)

def server : Pool.Server L C R ε Unit (World L ε α S) (Outcome Ω) :=
  Pool.Server.atomic fun _ c o w =>
    (srv.exec c o w.store).map fun x => ({ w with store := x.1 }, x.2)

def step (s : State L C R ε α S) : Action L Ω → Option (State L C R ε α S)
  | .request l => some (Pool.spawn srv.server l (srv.handle l) s)
  | .call i o => Pool.advance srv.server i o s
  | .finish i =>
    (Pool.retire i s).map fun x =>
      { x.2.2 with shared :=
        { x.2.2.shared with answered := x.2.2.shared.answered ++ [(x.1, x.2.1)] } }

end Spec

/-! ## Steps -/

section Steps

variable {srv : Spec L C R ε α S Ω} {s s' : State L C R ε α S} {i : Nat} {o : Outcome Ω}

theorem exec_cases {c : C} {s s' : S} {x : Except ε (R c)} (h : srv.exec c o s = some (s', x)) :
    (∃ ω, o = .ok ω ∧ srv.execute ω c s = some (s', x)) ∨
      x = .error srv.failure ∧
        (s' = s ∨ ∃ ω y, srv.execute ω c s = some (s', y)) := by
  rcases o with ω | ⟨_ | _, ω⟩
  · exact .inl ⟨ω, rfl, h⟩
  · cases h
    exact .inr ⟨rfl, .inl rfl⟩
  · obtain ⟨⟨s₁, y⟩, hy, heq⟩ := Option.map_eq_some_iff.mp h
    cases heq
    exact .inr ⟨rfl, .inr ⟨ω, y, hy⟩⟩

theorem call_eq_some (h : srv.step s (.call i o) = some s') :
    ∃ task c k x, s.tasks[i]? = some task ∧ task.prog = .call c k ∧
      srv.exec c o s.shared.store = some (s'.shared.store, x) ∧
      s'.shared.answered = s.shared.answered ∧ s'.tasks = s.tasks.set i { task with prog := k x } := by
  obtain ⟨task, task', hi, hstep, htasks⟩ := Pool.advance_set h
  obtain ⟨c, k, x, hprog, hexec, rfl⟩ := Pool.Task.step_atomic hstep
  obtain ⟨⟨s₁, y⟩, hs₁, heq⟩ := Option.map_eq_some_iff.mp hexec
  obtain ⟨hshared, rfl⟩ := Prod.mk.inj heq
  refine ⟨task, c, k, y, hi, hprog, ?_, ?_, htasks⟩
  · rw [← hshared]
    exact hs₁
  · rw [← hshared]

theorem finish_eq_some (h : srv.step s (.finish i) = some s') :
    ∃ task r, s.tasks[i]? = some task ∧ Pool.outcome task.prog = some r ∧
      s'.shared.store = s.shared.store ∧
      s'.shared.answered = s.shared.answered ++ [(task.label, r)] ∧
      s'.tasks = s.tasks.eraseIdx i := by
  obtain ⟨⟨l, r, s₁⟩, hretire, rfl⟩ := Option.map_eq_some_iff.mp h
  obtain ⟨task, hi, rfl, hended, rfl⟩ := Pool.retire_eraseIdx hretire
  exact ⟨task, r, hi, hended, rfl, rfl, rfl⟩

end Steps

/-! ## How an answer comes about -/

/-- What an action does to the requests in flight. -/
def Action.move : Action L Ω → Move
  | request _ => .arrive
  | call _ _ => .stay
  | finish i => .leave i

/-- Who is in flight after the actions, and who has been answered. -/
abbrev roster (as : List (Action L Ω)) : Roster := Roster.of Action.move as

/-- The request that arrived with the action `n₀` is in flight at the moment `j`. -/
def InFlight (as : List (Action L Ω)) (j n₀ : Nat) : Prop := n₀ ∈ (roster (as.take j)).flying

/-- From the moment `n` on, the request that arrived with the action `n₀` has made the calls of the
program at later and later moments of the run, in flight at each of them, and before the moment `f`
it has come to the result. -/
inductive Told (srv : Spec L C R ε α S Ω) (s₀ : S) (as : List (Action L Ω)) (n₀ f : Nat) :
    Nat → Prog C R ε α → Except ε α → Prop
  | ret {n : Nat} (a : α) (hn : n ≤ f) : Told srv s₀ as n₀ f n (.ret a) (.ok a)
  | raise {n : Nat} (e : ε) (hn : n ≤ f) : Told srv s₀ as n₀ f n (.raise e) (.error e)
  | call {n : Nat} (j : Nat) {c : C} {k : Except ε (R c) → Prog C R ε α}
    {m m' : State L C R ε α S} (o : Outcome Ω) (x : Except ε (R c)) {r : Except ε α} (hn : n ≤ j)
    (hm : Runs.At srv.step (init s₀) as j m) (hflight : InFlight as j n₀)
    (hexec : srv.exec c o m.shared.store = some (m'.shared.store, x))
    (hm' : Runs.At srv.step (init s₀) as (j + 1) m') (h : Told srv s₀ as n₀ f (j + 1) (k x) r) :
    Told srv s₀ as n₀ f n (.call c k) r

section Told

variable {srv : Spec L C R ε α S Ω} {s₀ : S} {as : List (Action L Ω)} {l : L} {n₀ f n : Nat}
  {p : Prog C R ε α} {r : Except ε α} {s : State L C R ε α S}

theorem Told.mono (h : Told srv s₀ as n₀ f n p r) {n' : Nat} (hn : n' ≤ n) :
    Told srv s₀ as n₀ f n' p r := by
  cases h with
  | ret a hf => exact .ret a (Nat.le_trans hn hf)
  | raise e hf => exact .raise e (Nat.le_trans hn hf)
  | call j o x hj hm hflight hexec hm' h =>
    exact .call j o x (Nat.le_trans hn hj) hm hflight hexec hm' h

/-- A program that has ended has its result. -/
theorem told_of_outcome (h : Pool.outcome p = some r) (hn : n ≤ f) : Told srv s₀ as n₀ f n p r := by
  cases p with
  | ret a =>
    cases h
    exact .ret a hn
  | raise e =>
    cases h
    exact .raise e hn
  | call c k => cases h

theorem Told.le (h : Told srv s₀ as n₀ f n p r) : n ≤ f := by
  induction h with
  | ret a hn => exact hn
  | raise e hn => exact hn
  | call j o x hj hm hflight hexec hm' _ ih => omega

/-- A part of the system comes to a result by a call that succeeds, and what follows its answer. -/
theorem told_embed_bind {C' : Type} {R' : C' → Type} {F : C' → C}
    {read : ∀ c, Except ε (R (F c)) → Except ε (R' c)} (hread : ∀ c e, read c (.error e) = .error e)
    {c : C'} {k : R' c → Prog C' R' ε α} {b : α}
    (h : Told srv s₀ as n₀ f n ((Prog.perform c >>= k).embed F read) (.ok b)) :
    ∃ j m m' ω x a, n ≤ j ∧ j < f ∧ Runs.At srv.step (init s₀) as j m ∧ InFlight as j n₀ ∧
      srv.execute ω (F c) m.shared.store = some (m'.shared.store, x) ∧ read c x = .ok a ∧
      Runs.At srv.step (init s₀) as (j + 1) m' ∧
      Told srv s₀ as n₀ f (j + 1) ((k a).embed F read) (.ok b) := by
  have hfails : ∀ {n e}, ¬ Told srv s₀ as n₀ f n (.raise e) (.ok b) := fun h => nomatch h
  cases h with
  | call j o x hj hm hflight hexec hm' hrest =>
    have hlt := hrest.le
    rcases exec_cases hexec with ⟨ω, -, hω⟩ | ⟨rfl, -⟩
    · cases hx : read c x with
      | error e =>
        simp only [hx] at hrest
        exact absurd hrest hfails
      | ok a =>
        simp only [hx] at hrest
        exact ⟨j, _, _, ω, x, a, hj, hlt, hm, hflight, hω, hx, hm', hrest⟩
    · -- a call that failed is not followed by a result
      simp only [hread] at hrest
      exact absurd hrest hfails

/-- A request in flight has arrived, and what it comes to from here on it comes to from its arrival
on. -/
def Underway (srv : Spec L C R ε α S Ω) (s₀ : S) (as : List (Action L Ω)) (n n₀ : Nat)
    (task : Task L C R ε α) : Prop :=
  n₀ < n ∧ as[n₀]? = some (.request task.label) ∧
    ∀ f r, Told srv s₀ as n₀ f n task.prog r →
      Told srv s₀ as n₀ f (n₀ + 1) (srv.handle task.label) r

/-- The answer has come about by the moment `f`. -/
def Answered (srv : Spec L C R ε α S Ω) (s₀ : S) (as : List (Action L Ω)) (f n₀ : Nat)
    (answer : L × Except ε α) : Prop :=
  n₀ < f ∧ as[n₀]? = some (.request answer.1) ∧
    Told srv s₀ as n₀ f (n₀ + 1) (srv.handle answer.1) answer.2

theorem Told.later (h : Told srv s₀ as n₀ f n p r) {f' : Nat} (hf : f ≤ f') :
    Told srv s₀ as n₀ f' n p r := by
  induction h with
  | ret a hn => exact .ret a (Nat.le_trans hn hf)
  | raise e hn => exact .raise e (Nat.le_trans hn hf)
  | call j o x hj hm hflight hexec hm' _ ih => exact .call j o x hj hm hflight hexec hm' ih

theorem Underway.next {task : Task L C R ε α} (h : Underway srv s₀ as n n₀ task) :
    Underway srv s₀ as (n + 1) n₀ task := by
  obtain ⟨hn₀, harrived, htold⟩ := h
  exact ⟨by omega, harrived, fun f r hr => htold f r (hr.mono (Nat.le_succ n))⟩

theorem Answered.next {answer : L × Except ε α} (h : Answered srv s₀ as n n₀ answer) :
    Answered srv s₀ as (n + 1) n₀ answer := by
  obtain ⟨hn₀, harrived, htold⟩ := h
  exact ⟨by omega, harrived, htold.later (Nat.le_succ n)⟩

/-- After the `n`-th action every request in flight is under way, and every answer has come about,
each as its number in the roster says. -/
structure Accounted (srv : Spec L C R ε α S Ω) (s₀ : S) (as : List (Action L Ω)) (n : Nat)
    (b : Roster) (m : State L C R ε α S) : Prop where
  tasks : List.Forall₂ (Underway srv s₀ as n) b.flying m.tasks
  answers : List.Forall₂ (Answered srv s₀ as n) b.answered m.shared.answered

/-- **Steps.** -/
theorem accounted_step {a : Action L Ω} {m m' : State L C R ε α S}
    (hm : Runs.At srv.step (init s₀) as n m) (ha : as[n]? = some a) (hnext : srv.step m a = some m')
    (hm' : Runs.At srv.step (init s₀) as (n + 1) m')
    (h : Accounted srv s₀ as n (roster (as.take n)) m) :
    Accounted srv s₀ as (n + 1) (roster (as.take (n + 1))) m' := by
  have hroster : roster (as.take (n + 1)) = (roster (as.take n)).next a.move := by
    obtain ⟨hlt, rfl⟩ := List.getElem?_eq_some_iff.mp ha
    rw [List.take_succ_eq_append_getElem hlt]
    exact Roster.of_concat _ _
  have htasks := h.tasks.imp fun _ _ => Underway.next
  have hanswers := h.answers.imp fun _ _ => Answered.next
  rw [hroster]
  cases a with
  | request l =>
    cases hnext
    refine ⟨Lists.forall₂_concat htasks ?_, hanswers⟩
    rw [Roster.actions_of, List.length_take, Nat.min_eq_left hm.1]
    exact ⟨by omega, ha, fun _ _ hr => hr⟩
  | call i o =>
    obtain ⟨task, c, k, x, hi, hprog, hexec, hsame, hset⟩ := call_eq_some hnext
    refine ⟨hset ▸ Lists.forall₂_set htasks fun n₀ hn₀ => ?_, hsame ▸ hanswers⟩
    -- the calls from here on are preceded by this one
    obtain ⟨n₁, hn₁, hlt, harrived, htold⟩ := Lists.exists_of_forall₂ h.tasks hi
    obtain rfl : n₁ = n₀ := Option.some.inj (hn₁.symm.trans hn₀)
    refine ⟨by omega, harrived, fun f r hr => htold f r ?_⟩
    rw [hprog]
    exact .call n o x (Nat.le_refl n) hm (List.mem_of_getElem? hn₁) hexec hm' hr
  | finish i =>
    obtain ⟨task, r, hi, hended, -, hsame, herase⟩ := finish_eq_some hnext
    obtain ⟨n₀, hn₀, hlt, harrived, htold⟩ := Lists.exists_of_forall₂ h.tasks hi
    refine ⟨herase ▸ Lists.forall₂_eraseIdx htasks, ?_⟩
    show List.Forall₂ _ (_ ++ (roster (as.take n)).flying[i]?.toList) _
    rw [hsame, hn₀]
    exact Lists.forall₂_concat hanswers
      ⟨by omega, harrived, htold (n + 1) r (told_of_outcome hended (Nat.le_succ n))⟩

/-- **Runs.** -/
theorem accounted_exec (hrun : Runs.exec srv.step (init s₀) as = some s) :
    Accounted srv s₀ as as.length (roster as) s := by
  have h := Runs.exec_moments (I := fun n m => Accounted srv s₀ as n (roster (as.take n)) m)
    ⟨.nil, .nil⟩ (fun _ _ _ _ => accounted_step) hrun
  rw [List.take_length] at h
  exact h

/-- The `k`-th answer is given to the request that arrived with the action `n₀`. -/
abbrev AnswersTo (as : List (Action L Ω)) (k n₀ : Nat) : Prop :=
  Roster.AnswersTo Action.move as k n₀

/-- **Answers.** Every answer of a run has come about by calls of the request it is given to, after
that request arrived. -/
theorem answered_told (hrun : Runs.exec srv.step (init s₀) as = some s) {k : Nat}
    (h : s.shared.answered[k]? = some (l, r)) :
    ∃ n₀, AnswersTo as k n₀ ∧ Answered srv s₀ as as.length n₀ (l, r) := by
  obtain ⟨n₀, hn₀, hanswered⟩ := Lists.exists_of_forall₂ (accounted_exec hrun).answers h
  exact ⟨n₀, Roster.answersTo hn₀, hanswered⟩

/-- A request in flight has arrived. -/
theorem arrived_of_mem {m : State L C R ε α S} (hm : Runs.At srv.step (init s₀) as n m)
    {task : Task L C R ε α} (htask : task ∈ m.tasks) :
    ∃ i < n, as[i]? = some (.request task.label) := by
  obtain ⟨i, hi⟩ := List.mem_iff_getElem?.mp htask
  obtain ⟨n₀, -, hn₀, harrived, -⟩ := Lists.exists_of_forall₂ (accounted_exec hm.2).tasks hi
  rw [List.length_take] at hn₀
  refine ⟨n₀, by omega, ?_⟩
  rw [List.getElem?_take_of_lt (by omega)] at harrived
  exact harrived

/-- A program that has ended meets the postcondition of its monitor. -/
theorem ended_of_outcome {G : Type} {M : Prog.Monitor C R ε G} {Q : Except ε α → G → Prop} {g : G}
    (h : p.Obeys M Q g) (hr : Pool.outcome p = some r) : Q r g := by
  cases p with
  | ret a =>
    cases hr
    exact h
  | raise e =>
    cases hr
    exact h
  | call c k => cases hr

end Told

/-! ## Stores that grow -/

section Store

variable {srv : Spec L C R ε α S Ω} {s₀ : S} {as : List (Action L Ω)} {s s' : State L C R ε α S}

/-- What every call does to the store, every step does. -/
theorem store_step {P : S → S → Prop} (hrefl : ∀ s, P s s)
    (hcall : ∀ ω c s s' x, srv.execute ω c s = some (s', x) → P s s') {a : Action L Ω}
    (h : srv.step s a = some s') : P s.shared.store s'.shared.store := by
  cases a with
  | request l =>
    cases h
    exact hrefl _
  | call i o =>
    obtain ⟨task, c, k, x, -, -, hexec, -⟩ := call_eq_some h
    rcases exec_cases hexec with ⟨ω, -, hω⟩ | ⟨-, hsame | ⟨ω, y, hω⟩⟩
    · exact hcall ω c _ _ x hω
    · rw [hsame]
      exact hrefl _
    · exact hcall ω c _ _ y hω
  | finish i =>
    obtain ⟨task, r, -, -, hsame, -⟩ := finish_eq_some h
    rw [hsame]
    exact hrefl _

/-- What every call keeps is kept from moment to moment. -/
theorem store_later {P : S → S → Prop} (hrefl : ∀ s, P s s)
    (htrans : ∀ a b c, P a b → P b c → P a c)
    (hcall : ∀ ω c s s' x, srv.execute ω c s = some (s', x) → P s s') {n n' : Nat}
    (h : Runs.At srv.step (init s₀) as n s) (h' : Runs.At srv.step (init s₀) as n' s')
    (hn : n ≤ n') : P s.shared.store s'.shared.store := by
  obtain ⟨bs, hrun⟩ := h.exec h' hn
  exact Runs.exec_relation (I := fun _ => True)
    (Q := fun s s' : State L C R ε α S => P s.shared.store s'.shared.store) (fun _ => hrefl _)
    (fun _ _ _ => htrans _ _ _) (fun _ _ _ _ _ hstep => ⟨trivial, store_step hrefl hcall hstep⟩)
    trivial (Runs.meets_of_forall (fun _ _ => trivial) s bs) hrun

end Store

/-! ## Records -/

section Records

variable {β : Type} (srv : Spec L C R ε α S Ω)
  (out : L → (c : C) → Except ε (R c) → Option β)

/-- The last thing that the calls of a request have put on record. -/
def recorder (l : L) : Prog.Monitor C R ε (Option β) where
  ok _ _ := True
  next g c x := (out l c x).or g

/-- What a step puts on record. -/
def records (s : State L C R ε α S) : Action L Ω → List β
  | .call i o =>
    match s.tasks[i]? with
    | some task =>
      match task.prog with
      | .call c _ =>
        match srv.exec c o s.shared.store with
        | some (_, x) => (out task.label c x).toList
        | none => []
      | _ => []
    | none => []
  | _ => []

variable {srv out} {s₀ : S} {as : List (Action L Ω)} {s s' : State L C R ε α S}

theorem records_call {i : Nat} {o : Outcome Ω} {task : Task L C R ε α} {c : C}
    {k : Except ε (R c) → Prog C R ε α} {s₁ : S} {x : Except ε (R c)}
    (hi : s.tasks[i]? = some task) (hprog : task.prog = .call c k)
    (hexec : srv.exec c o s.shared.store = some (s₁, x)) :
    records srv out s (.call i o) = (out task.label c x).toList := by
  simp only [records, hi, hprog, hexec]

/-- A step puts on record what a call has answered, or nothing. -/
theorem records_cases (hfail : ∀ l c e, out l c (.error e) = none) {a : Action L Ω}
    (h : srv.step s a = some s') :
    records srv out s a = [] ∨ ∃ l c ω x b,
      srv.execute ω c s.shared.store = some (s'.shared.store, x) ∧ out l c x = some b ∧
        records srv out s a = [b] := by
  cases a with
  | request l => exact .inl rfl
  | finish i => exact .inl rfl
  | call i o =>
    obtain ⟨task, c, k, x, hi, hprog, hexec, -⟩ := call_eq_some h
    rw [records_call hi hprog hexec]
    cases hout : out task.label c x with
    | none => exact .inl rfl
    | some b =>
      rcases exec_cases hexec with ⟨ω, -, hω⟩ | ⟨rfl, -⟩
      · exact .inr ⟨task.label, c, ω, x, b, hω, hout, rfl⟩
      · rw [hfail] at hout
        cases hout

/-- **New records.** What is recorded only when the store gains it, and is never lost, is recorded
once, and not at all if the store has had it. -/
theorem nodup_records (Has : S → β → Prop) (hfail : ∀ l c e, out l c (.error e) = none)
    (hkeep : ∀ ω c s s' x b, srv.execute ω c s = some (s', x) → Has s b → Has s' b)
    (hnew : ∀ l ω c s s' x b, srv.execute ω c s = some (s', x) → out l c x = some b →
      ¬ Has s b ∧ Has s' b) (hrun : Runs.exec srv.step (init s₀) as = some s) :
    (Runs.outputs srv.step (records srv out) (init s₀) as).Nodup ∧
      ∀ b ∈ Runs.outputs srv.step (records srv out) (init s₀) as, ¬ Has s₀ b := by
  -- what was recorded is there, and was not there at the start
  let I : State L C R ε α S → List β → Prop := fun s bs =>
    (∀ b, Has s₀ b → Has s.shared.store b) ∧ bs.Nodup ∧
      ∀ b ∈ bs, Has s.shared.store b ∧ ¬ Has s₀ b
  have hinit : I (init s₀) [] := ⟨fun _ h => h, List.nodup_nil, fun _ h => absurd h List.not_mem_nil⟩
  have hstep : ∀ s a s' bs, I s bs → srv.step s a = some s' → I s' (bs ++ records srv out s a) := by
    intro s a s' bs ⟨hstart, hnodup, hmem⟩ hstep
    have hkept : ∀ b, Has s.shared.store b → Has s'.shared.store b :=
      store_step (P := fun s s' => ∀ b, Has s b → Has s' b) (fun _ _ h => h)
        (fun ω c s s' x hexec b => hkeep ω c s s' x b hexec) hstep
    refine ⟨fun b hb => hkept b (hstart b hb), ?_⟩
    rcases records_cases hfail hstep with hnil | ⟨l, c, ω, x, b, hexec, hout, hone⟩
    · rw [hnil, List.append_nil]
      exact ⟨hnodup, fun b hb => ⟨hkept b (hmem b hb).1, (hmem b hb).2⟩⟩
    · obtain ⟨hfree, hhas⟩ := hnew l ω c _ _ x b hexec hout
      rw [hone]
      constructor
      · rw [← List.concat_eq_append]
        exact hnodup.concat fun hb => hfree (hmem b hb).1
      · intro b' hb'
        rcases List.mem_append.mp hb' with hb' | hb'
        · exact ⟨hkept b' (hmem b' hb').1, (hmem b' hb').2⟩
        · rw [List.mem_singleton.mp hb']
          exact ⟨hhas, fun h => hfree (hstart b h)⟩
  exact (Runs.exec_outputs hstep hinit hrun).2.imp_right fun h b hb => (h b hb).2

theorem exists_held {xs : List (Task L C R ε α × Option β)} (htasks : xs.map Prod.fst = s.tasks)
    {i : Nat} {task : Task L C R ε α} (hi : s.tasks[i]? = some task) :
    ∃ g, xs[i]? = some (task, g) := by
  rw [← htasks, List.getElem?_map] at hi
  obtain ⟨⟨_, g⟩, hx, rfl⟩ := Option.map_eq_some_iff.mp hi
  exact ⟨g, hx⟩

variable [DecidableEq β]

/-- How many answers show the record. -/
def shown (result : L → Except ε α → Option β) (b : β) (answered : List (L × Except ε α)) : Nat :=
  answered.countP fun x => result x.1 x.2 = some b

/-- How many requests in flight have it. -/
def held (b : β) (xs : List (Task L C R ε α × Option β)) : Nat := xs.countP fun x => x.2 = some b

/-- Every answer and every request in flight with a record is set against a record of the run. -/
structure Balanced (out : L → (c : C) → Except ε (R c) → Option β)
    (result : L → Except ε α → Option β) (b : β) (s : State L C R ε α S) (bs : List β)
    (xs : List (Task L C R ε α × Option β)) : Prop where
  tasks : xs.map Prod.fst = s.tasks
  obeys : ∀ x ∈ xs, x.1.prog.Obeys (recorder out x.1.label)
    (fun r g => ∀ b, result x.1.label r = some b → g = some b) x.2
  le : shown result b s.shared.answered + held b xs ≤ bs.count b

/-- **Steps.** -/
theorem balanced_step {result : L → Except ε α → Option β} {b : β}
    (hobeys : ∀ l, (srv.handle l).Obeys (recorder out l)
      (fun r g => ∀ b, result l r = some b → g = some b) none)
    {bs : List β} {xs : List (Task L C R ε α × Option β)}
    (hxs : Balanced out result b s bs xs) {a : Action L Ω} (h : srv.step s a = some s') :
    ∃ xs', Balanced out result b s' (bs ++ records srv out s a) xs' := by
  obtain ⟨htasks, hfits, hle⟩ := hxs
  cases a with
  | request l =>
    cases h
    refine ⟨xs ++ [(⟨l, srv.handle l, ()⟩, none)], ?_, fun x hx => ?_, ?_⟩
    · rw [List.map_append, htasks]
      rfl
    · rcases List.mem_append.mp hx with hx | hx
      · exact hfits x hx
      · cases List.mem_singleton.mp hx
        exact hobeys l
    · have hsame : held b (xs ++ [(⟨l, srv.handle l, ()⟩, none)]) = held b xs := by
        rw [held, List.countP_append, List.countP_singleton]
        rfl
      have hnil : records srv out s (.request l) = [] := rfl
      rw [hsame, hnil, List.append_nil]
      exact hle
  | call i o =>
    obtain ⟨task, c, k, x, hi, hprog, hexec, hanswered, hset⟩ := call_eq_some h
    obtain ⟨g, hx⟩ := exists_held htasks hi
    have hobey := hfits _ (List.mem_of_getElem? hx)
    rw [hprog] at hobey
    refine ⟨xs.set i ({ task with prog := k x }, (out task.label c x).or g), ?_, fun y hy => ?_, ?_⟩
    · rw [List.map_set, htasks, hset]
    · rcases List.mem_or_eq_of_mem_set hy with hy | rfl
      · exact hfits y hy
      · exact hobey.2 x
    · have hcount := Lists.countP_set (p := fun x : Task L C R ε α × Option β => x.2 = some b) hx
        ({ task with prog := k x }, (out task.label c x).or g)
      rw [records_call hi hprog hexec, List.count_append, hanswered]
      simp only [decide_eq_true_eq] at hcount
      unfold held at hle ⊢
      cases hout : out task.label c x with
      | none =>
        rw [Option.none_or]
        simp only [hout, Option.none_or] at hcount
        have hnil : List.count b (none : Option β).toList = 0 := rfl
        omega
      | some b' =>
        rw [Option.some_or]
        simp only [hout, Option.some_or] at hcount
        have hone : List.count b (some b').toList = if some b' = some b then 1 else 0 := by
          show List.count b [b'] = _
          rw [List.count_singleton]
          simp only [beq_iff_eq, Option.some.injEq]
        omega
  | finish i =>
    obtain ⟨task, r, hi, hended, -, hanswered, herase⟩ := finish_eq_some h
    obtain ⟨g, hx⟩ := exists_held htasks hi
    have hobey := hfits _ (List.mem_of_getElem? hx)
    refine ⟨xs.eraseIdx i, ?_, fun y hy => hfits y (List.mem_of_mem_eraseIdx hy), ?_⟩
    · rw [← List.eraseIdx_map, htasks, herase]
    · have hcount := Lists.countP_eraseIdx
        (p := fun x : Task L C R ε α × Option β => x.2 = some b) hx
      have hshown : shown result b s'.shared.answered = shown result b s.shared.answered +
          if result task.label r = some b then 1 else 0 := by
        rw [hanswered, shown, List.countP_append, List.countP_singleton]
        simp only [decide_eq_true_eq]
        rfl
      -- an answer that shows the record is that of a request that holds it
      have hheld : (if result task.label r = some b then 1 else 0) ≤ if g = some b then 1 else 0 := by
        split_ifs with hresult hg
        · omega
        · exact absurd (ended_of_outcome hobey hended b hresult) hg
        · omega
        · omega
      have hnil : records srv out s (.finish i) = [] := rfl
      rw [hnil, List.append_nil, hshown]
      simp only [decide_eq_true_eq] at hcount
      unfold held at hle ⊢
      omega

/-- **Records.** No record is shown by more answers than it has been made. -/
theorem shown_le_records (result : L → Except ε α → Option β)
    (hobeys : ∀ l, (srv.handle l).Obeys (recorder out l)
      (fun r g => ∀ b, result l r = some b → g = some b) none)
    (hrun : Runs.exec srv.step (init s₀) as = some s) (b : β) :
    shown result b s.shared.answered ≤
      (Runs.outputs srv.step (records srv out) (init s₀) as).count b := by
  have hinit : ∃ xs, Balanced out result b (init s₀ : State L C R ε α S) [] xs :=
    ⟨[], rfl, fun _ h => absurd h List.not_mem_nil, Nat.le_refl 0⟩
  obtain ⟨xs, hxs⟩ := Runs.exec_outputs
    (I := fun (s : State L C R ε α S) bs => ∃ xs, Balanced out result b s bs xs)
    (fun s a s' bs ⟨xs, hxs⟩ h => balanced_step hobeys hxs h) hinit hrun
  exact Nat.le_trans (Nat.le_add_right _ _) hxs.le

/-- **One answer.** What is recorded only when the store gains it is shown by at most one answer, and
by none if the store has had it. -/
theorem shown_le_one (Has : S → β → Prop) (result : L → Except ε α → Option β)
    (hobeys : ∀ l, (srv.handle l).Obeys (recorder out l)
      (fun r g => ∀ b, result l r = some b → g = some b) none)
    (hfail : ∀ l c e, out l c (.error e) = none)
    (hkeep : ∀ ω c s s' x b, srv.execute ω c s = some (s', x) → Has s b → Has s' b)
    (hnew : ∀ l ω c s s' x b, srv.execute ω c s = some (s', x) → out l c x = some b →
      ¬ Has s b ∧ Has s' b) (hrun : Runs.exec srv.step (init s₀) as = some s) (b : β) :
    shown result b s.shared.answered ≤ 1 ∧
      (Has s₀ b → shown result b s.shared.answered = 0) := by
  obtain ⟨hnodup, hnone⟩ := nodup_records Has hfail hkeep hnew hrun
  have hle := shown_le_records result hobeys hrun b
  refine ⟨Nat.le_trans hle (List.nodup_iff_count_le_one.mp hnodup b), fun hb => ?_⟩
  rw [List.count_eq_zero.mpr fun h => hnone b h hb] at hle
  omega

end Records

end Service

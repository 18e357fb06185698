import SocialNetwork.MongoApi.AnswerTheorems
import SocialNetwork.MongoApi.Coherence

/-!
# When the cache is coherent

An entry is stale when the `GET` that stored it would now compute something else. In a run without
failures no entry is stale while no request is in flight, if every `GET` stores its answer in time
(`no_stale_entry`); `list_survives_write` is a run in which one does not. When requests are
handled one at a time every `GET` is in time, and a stale entry is due to an invalidation that
failed (`complete_invalidation`).
-/

namespace SocialNetwork.MongoApi

open DocStore KeyValue

/-- A live entry that a `GET` has stored, and that is not what the request would compute now. -/
def Stale [Bson] (s : State) (e : Entry Value Request) : Prop :=
  e ∈ s.shared.redis.entries ∧ e.live s.shared.now = true ∧ e.tag.cache_key.isSome = true ∧
    ¬ Computes e.tag s.shared.db e.value

/-- The call does not fail. -/
def Action.answers : Action → Prop
  | .call _ outcome => ∃ ω, outcome = .ok ω
  | _ => True

/-- A request arrives only when there is none. -/
def Serial (s : State) : Action → Prop
  | .request _ => s.tasks = []
  | _ => True

instance (s : State) (a : Action) : Decidable (Serial s a) :=
  match a with
  | .request _ => decidable_of_iff (s.tasks.isEmpty = true) List.isEmpty_iff
  | .call _ _ | .finish _ | .tick _ => isTrue trivial

/-- After the entry was stored, and within the lifetime of an entry, a write has tried to clear its
prefix and failed. -/
def InvalidationFailed (s : State) (e : Entry Value Request) : Prop :=
  ∃ f ∈ s.shared.failures, f.request.writes = true ∧ e.tag.cache_prefix = some f.prefix_ ∧
    e.stamp < f.mark ∧ e.stored_at ≤ f.at_ ∧ f.at_ ≤ s.shared.now ∧
      s.shared.now < f.at_ + CACHE_TTL * 1000

/-- A write in flight has yet to delete the entry. -/
def BeingInvalidated (s : State) (e : Entry Value Request) : Prop :=
  ∃ task ∈ s.tasks, task.label.writes = true ∧
    ∃ p, e.tag.cache_prefix = some p ∧ Pending p e task

section Runs

variable {s s' : State} {a : Action} {e : Entry Value Request} {p : String}

/-- The prefix of an answer that has a key. -/
theorem cache_prefix_of_key {r : Request} (h : r.cache_key.isSome = true) :
    ∃ p, r.cache_prefix = some p := by
  obtain ⟨key, hkey⟩ := Option.isSome_iff_exists.mp h
  obtain ⟨p, -, hp, -⟩ := startsWith_cache_key hkey
  exact ⟨p, hp⟩

theorem loopStep_failures {l : Request} {aux : Option Scan} {ω : Choice} {w w' : World}
    {y : Option Scan ⊕ Except PyError Unit} (h : loopStep l p aux (.ok ω) w = some (w', y)) :
    w'.failures = w.failures := by
  unfold loopStep at h
  simp only at h
  split_ifs at h
  · cases h
    unfold World.delNext
    split <;> rfl
  · cases h
    rfl
  · cases h
    rfl

/-- No write of Mongo fails in it. -/
theorem mongoWrites_of_answers (hok : a.answers) (s : State) : MongoWrites s a := by
  cases a with
  | call i outcome => exact fun _ _ _ _ _ => hok
  | _ => trivial

variable [Bson]

/-! ## Stale entries -/

/-- Only a write clears a prefix. -/
theorem writes_of_will {l : Request} {g : Ghost} {prog : Api Reply}
    (h : prog.Obeys (monitor l) (Ended l) g) (hwill : prog.Will (.delete_scanned p)) :
    l.writes = true := by
  induction prog generalizing g with
  | ret reply => exact absurd hwill id
  | raise e => exact absurd hwill id
  | call c k ih =>
    by_cases hc : c = .delete_scanned p
    · subst hc
      exact h.1.1
    · exact ih (.error .connectionError) (h.2 _) (hwill.answer hc _)

/-- A failure is not older than the entry, which is not older than its lifetime. -/
theorem stale_cases (hs : Consistent s) (hcoherent : Coherent s) (h : Stale s e) :
    InvalidationFailed s e ∨ BeingInvalidated s e := by
  obtain ⟨he, hlive, hkey, hstale⟩ := h
  obtain ⟨p, hp⟩ := cache_prefix_of_key hkey
  cases hcoherent e he hlive p hp with
  | computed hcomputes => exact absurd hcomputes hstale
  | pending task htask hpending =>
    right
    obtain ⟨g, hobeys, -⟩ := (hs.tasks task htask).protocol
    exact ⟨task, htask, writes_of_will hobeys hpending.will, p, hp, hpending⟩
  | failed f hf hfp hmark hat =>
    left
    obtain ⟨hwrites, hnow⟩ := hs.stored.failures f hf
    obtain ⟨key, hkey⟩ := Option.isSome_iff_exists.mp hkey
    have hexpires := (hs.stored.cached e he key hkey).2
    have hlt : s.shared.now < e.stored_at + CACHE_TTL * 1000 := by
      unfold Entry.live at hlive
      rw [hexpires] at hlive
      exact decide_eq_true_eq.mp hlive
    refine ⟨f, hf, hwrites, ?_, hmark, hat, hnow, Nat.lt_of_lt_of_le hlt (Nat.add_le_add_right hat _)⟩
    rw [hfp]
    exact hp

/-! ## Runs without failures -/

/-- A call that answers is not logged. -/
theorem failures_step (hok : a.answers) (h : step s a = some s') :
    s'.shared.failures = s.shared.failures := by
  cases a with
  | request r =>
    cases h
    rfl
  | call i outcome =>
    obtain ⟨ω, rfl⟩ := hok
    obtain ⟨l₁, task, l₂, task', c, k, y, -, -, -, -, hexec, -⟩ := call_eq_some h
    rcases exec_cases hexec with ⟨p, rfl⟩ | hloop
    · exact loopStep_failures (l := task.label) hexec
    · rcases exec_atomic hloop hexec with ⟨ω', x, -, hx, -⟩ | ⟨ω', x, hfail, -⟩ | ⟨⟨ω', hfail⟩, -⟩
      · exact (execute_frame hx).failures
      · cases hfail
      · cases hfail
  | finish i =>
    obtain ⟨l₁, task, l₂, r, -, -, rfl⟩ := finish_eq_some h
    rfl
  | tick ms =>
    cases h
    rfl

/-! ## One request at a time -/

/-- At most one request is in flight, and what it is about to store is what it would compute now. -/
def Held (s : State) : Prop :=
  s.tasks.length ≤ 1 ∧ ∀ task ∈ s.tasks, ∀ key ttl value p,
    task.prog.head? = some (.setex key ttl value) → task.label.cache_prefix = some p →
      Computes task.label s.shared.db value

/-- What is stored next has been read in this step. -/
theorem computes_of_read {l : Request} {g : Ghost} {rows : Option (List Doc)} {c : Call}
    {k : Except PyError c.Answer → Api Reply} {aux : Option Scan} {outcome : Outcome} {w w' : World}
    {r : Except PyError c.Answer} (hallows : g.allows l c) (hreads : Reads l rows (.call c k))
    (hexec : exec l c aux outcome w = some (w', .inr r)) {key : String} {ttl : Nat} {value : Value}
    (hhead : (k r).head? = some (.setex key ttl value)) (hp : l.cache_prefix = some p) :
    Computes l w'.db value := by
  obtain ⟨docs, body, hread, hbody, rfl⟩ := (hreads.2 r).head_ok hhead
  cases c with
  | query q =>
    cases r with
    | error e => cases hread
    | ok answer =>
      cases hread
      obtain ⟨key', hkey⟩ := cache_key_of_prefix hp
      have hq : l.query? = some q := hallows (by rw [hkey]; rfl)
      rcases exec_atomic rfl hexec with ⟨ω, x, -, hx, hanswer⟩ | ⟨ω, x, -, -, hanswer⟩ | ⟨-, -, hanswer⟩
      · cases hanswer
        simp only [execute] at hx
        split at hx
        · cases hx
        · split_ifs at hx with hreturns
          cases hx
          exact ⟨q, _, body, hq, hreturns, hbody, rfl⟩
      · cases hanswer
      · cases hanswer
  | _ => cases hread

/-- A request does not begin with storing. -/
theorem head?_handle_ne (r : Request) (key : String) (ttl : Nat) (value : Value) :
    (handle r).head? ≠ some (.setex key ttl value) := by
  intro hhead
  obtain ⟨docs, body, hread, -⟩ := (handle_reads r).head_ok hhead
  cases hread

/-- A serial step keeps the entries accounted for. -/
theorem held_step (hs : Consistent s) (hheld : Held s) (hserial : Serial s a)
    (h : step s a = some s') : Held s' := by
  obtain ⟨hlength, hheld⟩ := hheld
  cases a with
  | request r =>
    cases h
    have hnone : s.tasks = [] := hserial
    refine ⟨?_, fun task htask key ttl value p hhead => ?_⟩
    · show (s.tasks ++ [_]).length ≤ 1
      rw [hnone]
      exact Nat.le_refl 1
    · rcases List.mem_append.mp htask with htask | htask
      · rw [hnone] at htask
        cases htask
      · rw [List.mem_singleton.mp htask] at hhead
        exact absurd hhead (head?_handle_ne r key ttl value)
  | call i outcome =>
    obtain ⟨l₁, task, l₂, task', c, k, y, hi, htasks, htasks', hprog, hexec, hy⟩ := call_eq_some h
    -- the request that moves is the only one
    have hone : l₁ = [] ∧ l₂ = [] := by
      have hcount := hlength
      rw [htasks, List.length_append, List.length_cons] at hcount
      exact ⟨List.eq_nil_of_length_eq_zero (by omega), List.eq_nil_of_length_eq_zero (by omega)⟩
    obtain ⟨rfl, rfl⟩ := hone
    refine ⟨?_, fun t ht key ttl value p hhead hp => ?_⟩
    · rw [htasks']
      exact Nat.le_refl 1
    · rw [htasks'] at ht
      rw [List.mem_singleton.mp ht] at hhead hp ⊢
      obtain ⟨⟨g, hobeys, -⟩, rows, hreads⟩ := hs.tasks task (List.mem_of_getElem? hi)
      rw [hprog] at hobeys hreads
      rcases hy with ⟨sc, rfl, rfl⟩ | ⟨r, rfl, rfl⟩
      · -- a loop goes on
        have hloop := isLoop_of_exec_inl hexec
        have hsame : task.prog.head? = some (.setex key ttl value) := hhead
        rw [hprog] at hsame
        cases hsame
        cases hloop
      · exact computes_of_read hobeys.1 hreads hexec hhead hp
  | finish i =>
    obtain ⟨l₁, task, l₂, r, htasks, -, rfl⟩ := finish_eq_some h
    rw [htasks] at hlength hheld
    refine ⟨?_, fun t ht => hheld t (Lists.mem_middle.mpr (.inr ht))⟩
    rw [List.length_append, List.length_cons] at hlength
    show (l₁ ++ l₂).length ≤ 1
    rw [List.length_append]
    omega
  | tick ms =>
    cases h
    exact ⟨hlength, hheld⟩

/-- A request alone is in time. -/
theorem Held.timely (h : Held s) (a : Action) : Timely s a := by
  cases a with
  | call i outcome =>
    intro task key ttl value p hi hhead hp
    exact .inl (h.2 task (List.mem_of_getElem? hi) key ttl value p hhead hp)
  | _ => trivial

/-- In a serial run every answer is stored in time. -/
theorem timely_of_serial {db : Db} (hdb : db.Known) {as : List Action}
    (hserial : Runs.Meets step Serial (State.init db) as) :
    Runs.Meets step Timely (State.init db) as := by
  refine Runs.Meets.of_invariant (I := fun s => Consistent s ∧ Held s) (fun s a s' hI hok h => ?_)
    (fun s a hI _ => hI.2.timely a) ⟨consistent_init hdb, Nat.zero_le 1, nofun⟩ hserial
  exact ⟨consistent_step hI.1 h, held_step hI.1 hI.2 hok h⟩

end Runs

/-! ## Runs with one user -/

theorem length_dumpsList (vs : List Value) : (dumpsList vs).length = vs.length := by
  induction vs with
  | nil => rfl
  | cons v vs ih => exact congrArg (· + 1) ih

section Users

variable [Bson]

/-- The list of all users has as many elements as there are users. -/
theorem length_of_computes {db : Db} {vs : List Value}
    (h : Computes (.get_users none none) db (.arr vs)) : vs.length = (db.docs .users).length := by
  obtain ⟨q, rows, body, hq, hreturns, hbody, hvalue⟩ := h
  cases hq
  obtain ⟨-, -, hrows⟩ := hreturns
  have hall : rows = db.docs .users := by
    rw [if_pos rfl] at hrows
    rw [hrows]
    exact List.filter_eq_self.mpr fun _ _ => rfl
  obtain ⟨docs, hdocs, hlist⟩ := Fallible.exists_of_bind hbody
  cases hlist
  cases hvalue
  rw [length_dumpsList, List.length_map, Fallible.length_of_mapM hdocs, hall]

/-- An empty list of users, while there is one. -/
theorem stale_of_empty {s : State} {e : Entry Value Request} (he : s.shared.redis.entries = [e])
    (hlive : e.live s.shared.now = true) (htag : e.tag = .get_users none none)
    (hvalue : e.value = .arr []) (husers : (s.shared.db.docs .users).length = 1) : Stale s e := by
  refine ⟨?_, hlive, ?_, fun hcomputes => ?_⟩
  · rw [he]
    exact List.mem_cons_self
  · rw [htag]
    rfl
  · rw [htag, hvalue] at hcomputes
    have hlength := length_of_computes hcomputes
    rw [husers] at hlength
    cases hlength

/-- What is seen of a state. -/
def summary (s : State) : Nat × List (Bool × Request × Value) × Nat :=
  (s.tasks.length, s.shared.redis.entries.map fun e => (e.live s.shared.now, e.tag, e.value),
    (s.shared.db.docs .users).length)

/-- A run that leaves an empty list of users, and a user. -/
theorem exists_stale (as : List Action) (h : (Runs.exec step (State.init Db.empty) as).map summary =
    some (0, [(true, .get_users none none, .arr [])], 1)) :
    ∃ s e, Runs.exec step (State.init Db.empty) as = some s ∧ s.tasks = [] ∧ Stale s e := by
  obtain ⟨s, hrun, hs⟩ := Option.map_eq_some_iff.mp h
  obtain ⟨htasks, hs⟩ := Prod.mk.inj hs
  obtain ⟨hentries, husers⟩ := Prod.mk.inj hs
  obtain ⟨e, he, hfields⟩ := List.map_eq_singleton_iff.mp hentries
  obtain ⟨hlive, hfields⟩ := Prod.mk.inj hfields
  obtain ⟨htag, hvalue⟩ := Prod.mk.inj hfields
  exact ⟨s, e, hrun, List.eq_nil_of_length_eq_zero htasks, stale_of_empty he hlive htag hvalue husers⟩

end Users

/-- The choice of a call on empty collections. -/
def first : Choice := ⟨.ofNat 0, [], [], true⟩

def newUser : UserCreate := ⟨"bob", "bob@example.com", "secret", "Bob", "Brown", some 30, []⟩

def listUsers : Request := .get_users none none

/-! ## Requests at the same time -/

section Concurrent

variable [Bson] {s : State} {e : Entry Value Request}

/-- **Coherence under concurrency.** From a database whose ids have been given out, in every run
without failures in which each `GET` stores its answer in time, no entry is stale when no request
is in flight. -/
theorem no_stale_entry {db : Db} (hdb : db.Known) {as : List Action}
    (hok : ∀ a ∈ as, a.answers) (htimely : Runs.Meets step Timely (State.init db) as)
    (hrun : Runs.exec step (State.init db) as = some s) (hidle : s.tasks = []) : ¬ Stale s e := by
  have hanswers : Runs.Meets step (fun _ a => a.answers) (State.init db) as :=
    Runs.meets_of_mem hok (State.init db)
  have hmeets := hanswers.and htimely
  have hinvariant : Consistent s ∧ Coherent s ∧ s.shared.failures = [] := by
    refine Runs.exec_invariant (I := fun s => Consistent s ∧ Coherent s ∧ s.shared.failures = [])
      (fun s a s' hI hok h => ?_) ⟨consistent_init hdb, nofun, rfl⟩ hmeets hrun
    obtain ⟨hconsistent, hcoherent, hnone⟩ := hI
    refine ⟨consistent_step hconsistent h,
      coherent_step hconsistent hcoherent (mongoWrites_of_answers hok.1 s) hok.2 h, ?_⟩
    rw [failures_step hok.1 h]
    exact hnone
  obtain ⟨hconsistent, hcoherent, hnone⟩ := hinvariant
  intro hstale
  rcases stale_cases hconsistent hcoherent hstale with ⟨f, hf, -⟩ | ⟨task, htask, -⟩
  · rw [hnone] at hf
    cases hf
  · rw [hidle] at htask
    cases htask

/-- What the request stores next. -/
def stored? (task : Task) : Option Value :=
  match task.prog.head? with
  | some (.setex _ _ value) => some value
  | _ => none

/-- What a request stores next is what it would answer now, with these rows. -/
def StoresAnswer (ω : Choice) (s : State) : Action → Prop
  | .call i _ => ∀ task ∈ s.tasks[i]?, ∀ value ∈ stored? task, task.label.cache_key.isSome = true ∧
      (respond ω task.label s.shared.db).toOption.map (fun reply => json_dumps reply.body) = some value
  | _ => True

instance (ω : Choice) (s : State) : (a : Action) → Decidable (StoresAnswer ω s a)
  | .call i _ => inferInstanceAs (Decidable (∀ task ∈ s.tasks[i]?, ∀ value ∈ stored? task, _ ∧ _))
  | .request _ | .finish _ | .tick _ => .isTrue trivial

/-- An answer stored for what it was read from is in time. -/
theorem StoresAnswer.timely {ω : Choice} {a : Action} (h : StoresAnswer ω s a) : Timely s a := by
  cases a with
  | call i outcome =>
    intro task key ttl value p hi hhead hp
    have hstored : stored? task = some value := by
      unfold stored?
      rw [hhead]
    obtain ⟨hkey, hanswer⟩ := h task hi value hstored
    cases hrespond : respond ω task.label s.shared.db with
    | error e =>
      rw [hrespond] at hanswer
      cases hanswer
    | ok reply =>
      rw [hrespond] at hanswer
      exact .inl ((computes_iff hkey).mpr ⟨ω, reply, hrespond, (Option.some.inj hanswer).symm⟩)
  | _ => trivial

end Concurrent

open scoped Hex

/-- What a list of users finds when there is one. -/
def withNewUser : Choice :=
  { first with rows := [("_id", .oid (.ofNat 0)) :: (newUser.model_dump ++ [("created_at", .date 0)])] }

/-- The users are listed while one is created: the list is read after the insertion and stored when
the cache has been cleared. -/
def createWhileListing : List Action :=
  [.request listUsers, .call 0 (.ok first), .request (.create_user newUser), .call 1 (.ok first),
    .call 1 (.ok first), .call 0 (.ok withNewUser), .call 1 (.ok first), .call 1 (.ok first),
    .call 0 (.ok withNewUser), .call 1 (.ok first), .finish 1, .finish 0]

theorem no_stale_entry_listed : ∃ s, Runs.exec step (State.init Db.empty) createWhileListing = some s ∧
    ¬ Runs.Meets step Serial (State.init Db.empty) createWhileListing ∧
    s.shared.redis.entries.length = 1 ∧ ∀ e, ¬ Stale s e := by
  have hresult : (Runs.exec step (State.init Db.empty) createWhileListing).map
      (fun s => (s.tasks.length, s.shared.redis.entries.length)) = some (0, 1) := by decide +kernel
  obtain ⟨s, hrun, hs⟩ := Option.map_eq_some_iff.mp hresult
  obtain ⟨htasks, hentries⟩ := Prod.mk.inj hs
  have hok : ∀ a ∈ createWhileListing, a.answers := by
    simp [createWhileListing, Action.answers]
  have hstores : Runs.Meets step (StoresAnswer withNewUser) (State.init Db.empty)
      createWhileListing := by decide +kernel
  refine ⟨s, hrun, by decide +kernel, hentries, fun e => ?_⟩
  exact no_stale_entry Db.known_empty hok (hstores.mono fun s a h => h.timely) hrun
    (List.eq_nil_of_length_eq_zero htasks)

/-- A list of users is read before a user is created, and stored after the cache has been cleared. -/
def storeTooLate : List Action :=
  [.request listUsers, .call 0 (.ok first), .call 0 (.ok first), .request (.create_user newUser),
    .call 1 (.ok first), .call 1 (.ok first), .call 1 (.ok first), .call 1 (.ok first),
    .call 1 (.ok first), .finish 1, .call 0 (.ok first), .finish 0]

/-- The list survives the write that should have cleared it. -/
theorem list_survives_write : ∃ as s e, (∀ a ∈ as, a.answers) ∧
    Runs.exec step (State.init Db.empty) as = some s ∧ s.tasks = [] ∧ Stale s e := by
  obtain ⟨s, e, hrun, hidle, hstale⟩ := exists_stale storeTooLate (by decide +kernel)
  have hok : ∀ a ∈ storeTooLate, a.answers := by
    simp [storeTooLate, Action.answers]
  exact ⟨storeTooLate, s, e, hok, hrun, hidle, hstale⟩

/-! ## One request after the other -/

/-- **Complete invalidation.** Requests are handled one at a time and no write of Mongo fails. An
entry is stale only when an invalidation of its prefix has failed since it was stored, or while
the write that has made it so has yet to delete it; so between two requests no entry is stale
without such a failure. -/
theorem complete_invalidation [Bson] {s : State} {db : Db} (hdb : db.Known) {as : List Action}
    (hserial : Runs.Meets step Serial (State.init db) as)
    (hmongo : Runs.Meets step MongoWrites (State.init db) as)
    (hrun : Runs.exec step (State.init db) as = some s) :
    (∀ e, Stale s e → InvalidationFailed s e ∨ BeingInvalidated s e) ∧
      (s.tasks = [] → ∀ e, Stale s e → InvalidationFailed s e) ∧
        (s.tasks = [] → s.shared.failures = [] → ∀ e, ¬ Stale s e) := by
  have hinvariant : Consistent s ∧ Coherent s := by
    refine Runs.exec_invariant (I := fun s => Consistent s ∧ Coherent s) (fun s a s' hI hok h => ?_)
      ⟨consistent_init hdb, nofun⟩ ((timely_of_serial hdb hserial).and hmongo) hrun
    exact ⟨consistent_step hI.1 h, coherent_step hI.1 hI.2 hok.2 hok.1 h⟩
  have hcases : ∀ e, Stale s e → InvalidationFailed s e ∨ BeingInvalidated s e :=
    fun e => stale_cases hinvariant.1 hinvariant.2
  have hidle : s.tasks = [] → ∀ e, Stale s e → InvalidationFailed s e := by
    intro hnone e hstale
    apply (hcases e hstale).resolve_right
    rintro ⟨task, htask, -⟩
    rw [hnone] at htask
    cases htask
  refine ⟨hcases, hidle, fun hnone hfailures e hstale => ?_⟩
  obtain ⟨f, hf, -⟩ := hidle hnone e hstale
  rw [hfailures] at hf
  cases hf

/-- The invalidation of a new user fails. -/
def failToClear : List Action :=
  [.request listUsers, .call 0 (.ok first), .call 0 (.ok first), .call 0 (.ok first), .finish 0,
    .request (.create_user newUser), .call 0 (.ok first), .call 0 (.ok first),
    .call 0 (.raises false first), .call 0 (.ok first), .finish 0]

theorem complete_invalidation_failed : ∃ s e, Runs.exec step (State.init Db.empty) failToClear = some s ∧
    Stale s e ∧ InvalidationFailed s e := by
  obtain ⟨s, e, hrun, hidle, hstale⟩ := exists_stale failToClear (by decide +kernel)
  have hserial : Runs.Meets step Serial (State.init Db.empty) failToClear := by decide +kernel
  have hmongo : Runs.Meets step MongoWrites (State.init Db.empty) failToClear := by decide +kernel
  exact ⟨s, e, hrun, hstale,
    (complete_invalidation Db.known_empty hserial hmongo hrun).2.1 hidle e hstale⟩

end SocialNetwork.MongoApi

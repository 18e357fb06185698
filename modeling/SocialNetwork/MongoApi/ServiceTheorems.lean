import SocialNetwork.MongoApi.Protocol

/-!
# What a step does

Every call but the loop over `scan_iter` is one atomic step (`exec_atomic`), and what it changes is
said by `execute`; `loopStep_cases` lists the steps of the loop. No call answers with a status, and
only the calls of the cache and of the rate limiter change Redis.
-/

namespace SocialNetwork.MongoApi

open DocStore KeyValue

variable {l : Request} {w w' : World} {ω : Choice} {c : Call} {aux : Option Scan} {outcome : Outcome}

/-! ## Keys of the cache -/

/-- A key of the cache begins with the prefix that its invalidation deletes. -/
theorem startsWith_cache_key {key : String} (h : l.cache_key = some key) :
    ∃ p ∈ ["users:", "posts:", "stats:"], l.cache_prefix = some p ∧ startsWith p key = true := by
  have hjoin : ∀ p s rest : String, startsWith p (p ++ s ++ rest) = true := by
    intro p s rest
    rw [String.append_assoc]
    exact startsWith_append p _
  cases l with
  | get_users login min_age =>
    cases h
    refine ⟨"users:", by decide, rfl, ?_⟩
    unfold usersKey
    rw [String.append_assoc, String.append_assoc]
    exact hjoin "users:" "login=" _
  | get_posts author_id tag =>
    cases h
    refine ⟨"posts:", by decide, rfl, ?_⟩
    unfold postsKey
    rw [String.append_assoc, String.append_assoc]
    exact hjoin "posts:" "author_id=" _
  | posts_by_users =>
    cases h
    exact ⟨"stats:", by decide, rfl, startsWith_append "stats:" "posts-by-users"⟩
  | _ => cases h

/-! ## Atomic calls -/

/-- The call is a loop. -/
def Call.isLoop : Call → Bool
  | .delete_scanned _ => true
  | _ => false

/-- A call that is one step is answered; it raises after or before it took effect, or answers. -/
theorem exec_atomic (hc : c.isLoop = false) {y : Option Scan ⊕ Except PyError c.Answer}
    (h : exec l c aux outcome w = some (w', y)) :
    (∃ ω x, outcome = .ok ω ∧ execute ω l c w = some (w', x) ∧ y = .inr x) ∨
      (∃ ω x, outcome = .raises true ω ∧ execute ω l c w = some (w', x) ∧
        y = .inr (.error .connectionError)) ∨
      (∃ ω, outcome = .raises false ω) ∧ w' = w ∧ y = .inr (.error .connectionError) := by
  have hexec : exec l c aux outcome w =
      match outcome with
      | .ok ω => (execute ω l c w).map fun x => (x.1, .inr x.2)
      | .raises true ω => (execute ω l c w).map fun x => (x.1, .inr (.error .connectionError))
      | .raises false _ => some (w, .inr (.error .connectionError)) := by
    cases c with
    | delete_scanned prefix_ => cases hc
    | _ => rcases outcome with ω | ⟨_ | _, ω⟩ <;> rfl
  rw [hexec] at h
  rcases outcome with ω | ⟨_ | _, ω⟩
  · obtain ⟨⟨w₁, x⟩, hx, heq⟩ := Option.map_eq_some_iff.mp h
    cases heq
    exact .inl ⟨ω, x, rfl, hx, rfl⟩
  · cases h
    exact .inr (.inr ⟨⟨ω, rfl⟩, rfl, rfl⟩)
  · obtain ⟨⟨w₁, x⟩, hx, heq⟩ := Option.map_eq_some_iff.mp h
    cases heq
    exact .inr (.inl ⟨ω, x, rfl, hx, rfl⟩)

/-- Only the loop takes several steps. -/
theorem isLoop_of_exec_inl {sc : Option Scan} (h : exec l c aux outcome w = some (w', .inl sc)) :
    c.isLoop = true := by
  by_contra hc
  rcases exec_atomic (Bool.not_eq_true _ ▸ hc) h with ⟨_, _, -, -, hy⟩ | ⟨_, _, -, -, hy⟩ | ⟨-, -, hy⟩
  · cases hy
  · cases hy
  · cases hy

/-- The calls that change Redis. -/
def Call.changesRedis : Call → Bool
  | .setex _ _ _ | .delete_scanned _ | .incr _ | .expire _ _ => true
  | _ => false

/-- The calls that change Mongo. -/
def Call.changesMongo : Call → Bool
  | .insert_one _ _ | .update_one _ _ _ | .delete_one _ _ => true
  | _ => false

/-- What a call leaves alone. -/
structure Frame (c : Call) (w w' : World) : Prop where
  now : w'.now = w.now
  failures : w'.failures = w.failures
  answered : w'.answered = w.answered
  redis : c.changesRedis = false → w'.redis = w.redis
  db : c.changesMongo = false → w'.db = w.db

theorem Frame.refl (c : Call) (w : World) : Frame c w w := ⟨rfl, rfl, rfl, fun _ => rfl, fun _ => rfl⟩

theorem frame_of_db (hc : c.changesMongo = true) (db : Db) : Frame c w { w with db := db } :=
  ⟨rfl, rfl, rfl, fun _ => rfl, fun h => by rw [hc] at h; cases h⟩

theorem frame_of_redis (hc : c.changesRedis = true) (redis : Store Value Request) :
    Frame c w { w with redis := redis } :=
  ⟨rfl, rfl, rfl, fun h => absurd (hc.symm.trans h) (by decide), fun _ => rfl⟩

/-- A call changes what it is made to, at most. -/
theorem execute_frame {x : Except PyError c.Answer} (h : execute ω l c w = some (w', x)) :
    Frame c w w' := by
  cases c with
  | query q =>
    simp only [execute] at h
    split at h
    · cases h
      exact Frame.refl _ _
    · split_ifs at h
      cases h
      exact Frame.refl _ _
  | find_one coll filter =>
    cases h
    exact Frame.refl _ _
  | insert_one coll doc =>
    simp only [execute] at h
    split_ifs at h
    split at h
    · cases h
      exact frame_of_db rfl _
    · cases h
      exact Frame.refl _ _
  | update_one coll filter update =>
    simp only [execute] at h
    split at h
    · cases h
      exact frame_of_db rfl _
    · cases h
      exact Frame.refl _ _
  | delete_one coll filter =>
    cases h
    exact frame_of_db rfl _
  | get key =>
    cases h
    exact Frame.refl _ _
  | setex key ttl value =>
    cases h
    exact frame_of_redis rfl _
  -- the scan loop is never one atomic call
  | delete_scanned prefix_ => cases h
  | incr key =>
    simp only [execute] at h
    split at h
    · cases h
      exact frame_of_redis rfl _
    · split at h
      · cases h
        exact frame_of_redis rfl _
      · cases h
        exact Frame.refl _ _
  | expire key ttl =>
    cases h
    exact frame_of_redis rfl _
  | utcnow =>
    cases h
    exact Frame.refl _ _
  | time =>
    cases h
    exact Frame.refl _ _

/-- The exceptions of calls. -/
def PyError.ofCall : PyError → Bool
  | writeError | overflowError | operationFailure | connectionError | invalidBSON | valueError => true
  | _ => false

/-- A failing call is no 429. -/
theorem not_limited_of_ofCall {e : PyError} (h : e.ofCall = true) : ¬ e.limited := by
  cases e with
  | httpException status_code detail headers => cases h
  | _ => exact id

/-- What is answered is what was found. -/
theorem readOne_eq_ok {found doc : Option Doc} (h : readOne found = .ok doc) : doc = found := by
  cases found with
  | none => exact (Except.ok.inj h).symm
  | some d =>
    simp only [readOne] at h
    split_ifs at h
    exact (Except.ok.inj h).symm

/-- A document is unread because of its dates only. -/
theorem readOne_eq_error {found : Option Doc} {e : PyError} (h : readOne found = .error e) :
    e = .invalidBSON := by
  cases found with
  | none => cases h
  | some d =>
    simp only [readOne] at h
    split_ifs at h
    exact (Except.error.inj h).symm

/-- The exceptions of queries. -/
theorem Query.error?_ofCall {db : Db} {q : Query} {e : PyError} (h : q.error? db = some e) :
    e.ofCall = true := by
  cases q with
  | find coll filter sort =>
    simp only [Query.error?] at h
    split_ifs at h
    · rw [← Option.some.inj h]
      rfl
    · rw [← Option.some.inj h]
      rfl
  | aggregate coll pipeline =>
    simp only [Query.error?] at h
    split at h
    · split_ifs at h
      rw [← Option.some.inj h]
      rfl
    · rw [← Option.some.inj h]
      rfl

theorem execute_ofCall {e : PyError} (h : execute ω l c w = some (w', .error e)) :
    e.ofCall = true := by
  cases c with
  | query q =>
    simp only [execute] at h
    split at h
    · next e' he' =>
      cases h
      exact Query.error?_ofCall he'
    · split_ifs at h
      cases h
  | find_one coll filter =>
    have hread : readOne _ = .error e := (Prod.mk.inj (Option.some.inj h)).2
    rw [readOne_eq_error hread]
    rfl
  | insert_one coll doc =>
    simp only [execute] at h
    split_ifs at h
    split at h
    · cases h
    · cases h
      unfold refusal
      split_ifs <;> rfl
  | update_one coll filter update =>
    simp only [execute] at h
    split at h
    · cases h
    · cases h
      unfold refusal
      split_ifs <;> rfl
  | incr key =>
    simp only [execute] at h
    split at h
    · cases h
    · split at h
      · cases h
      · cases h
        rfl
  | utcnow =>
    have hnow : (if isDate w.now then Except.ok w.now else .error .valueError : Except PyError Nat) =
        .error e := (Prod.mk.inj (Option.some.inj h)).2
    split_ifs at hnow
    rw [← Except.error.inj hnow]
    rfl
  | _ => cases h

/-! ## The loop over `scan_iter` -/

/-- The steps of the loop: a DEL, a SCAN, the end, or an exception. -/
inductive LoopStep (l : Request) (prefix_ : String) (sc : Scan) (w : World) :
    World → Option Scan ⊕ Except PyError Unit → Prop
  | del (key : String) (rest : List String) (hbatch : sc.batch = key :: rest) :
    LoopStep l prefix_ sc w { w with redis := w.redis.del key } (.inl (some sc.tail))
  | scan (keys : List String) (last : Bool) (hbatch : sc.batch = []) (hlast : sc.last = false)
    (hadmits : sc.Admits w.redis w.now prefix_ keys last) :
    LoopStep l prefix_ sc w w (.inl (some (sc.page keys last)))
  | done (hbatch : sc.batch = []) (hlast : sc.last = true) : LoopStep l prefix_ sc w w (.inr (.ok ()))
  | raises (w₁ : World)
    (hw₁ : w₁ = w ∨ ∃ key ∈ sc.batch, w₁ = { w with redis := w.redis.del key }) :
    LoopStep l prefix_ sc w (w₁.fail l prefix_) (.inr (.error .connectionError))

/-- The ways a page of the scan may go. -/
theorem loopStep_cases {prefix_ : String} {y : Option Scan ⊕ Except PyError Unit}
    (h : loopStep l prefix_ aux outcome w = some (w', y)) :
    LoopStep l prefix_ (aux.getD (Scan.begin_ w.redis)) w w' y := by
  unfold loopStep at h
  simp only at h
  generalize hsc : aux.getD (Scan.begin_ w.redis) = sc at h ⊢
  rcases outcome with ω | ⟨applied, ω⟩
  · simp only at h
    -- a key of the batch is deleted, or the batch is empty and the scan has ended or goes on
    split_ifs at h with hbatch hlast hadmits
    · cases h
      cases hkeys : sc.batch with
      | nil => exact absurd hkeys hbatch
      | cons key rest =>
        have hdel : w.delNext sc = { w with redis := w.redis.del key } := by
          unfold World.delNext
          rw [hkeys]
        rw [hdel]
        exact .del key rest hkeys
    · cases h
      exact .done (not_not.mp hbatch) hlast
    · cases h
      exact .scan _ _ (not_not.mp hbatch) (Bool.not_eq_true _ ▸ hlast) hadmits
  · simp only at h
    split_ifs at h with hend happlied
    · cases h
      refine .raises _ ?_
      unfold World.delNext
      cases hkeys : sc.batch with
      | nil => exact .inl rfl
      | cons key rest => exact .inr ⟨key, List.mem_cons_self, rfl⟩
    · cases h
      exact .raises w (.inl rfl)

theorem exec_ofCall {e : PyError} (h : exec l c aux outcome w = some (w', .inr (.error e))) :
    e.ofCall = true := by
  by_cases hc : c.isLoop = true
  · cases c with
    | delete_scanned prefix_ =>
      have hloop : loopStep l prefix_ aux outcome w = some (w', .inr (.error e)) := h
      cases loopStep_cases hloop with
      | raises w₁ hw₁ => rfl
    | _ => cases hc
  · rw [Bool.not_eq_true] at hc
    rcases exec_atomic hc h with ⟨ω, x, -, hx, hy⟩ | ⟨ω, x, -, -, hy⟩ | ⟨-, -, hy⟩
    · cases hy
      exact execute_ofCall hx
    · cases hy
      rfl
    · cases hy
      rfl

/-- No call answers with a status. -/
theorem exec_error {e : PyError} (h : exec l c aux outcome w = some (w', .inr (.error e))) :
    ¬ e.limited := not_limited_of_ofCall (exec_ofCall h)

/-! ## What a call does to Mongo -/

/-- The database before and after a call that ends. Where it answers, it answers what it did. -/
inductive Effect (db : Db) : (c : Call) → Except PyError c.Answer → Db → Prop
  | same {c : Call} {x : Except PyError c.Answer} (hx : c.changesMongo = true → ∃ e, x = .error e) :
    Effect db c x db
  | insert {coll : Coll} {doc : Doc} {id : ObjectId} {x : Except PyError ObjectId} {db' : Db}
    (hnew : id ∉ db.issued) (hinsert : db.insert_one coll id doc = some db')
    (hx : ∀ a, x = .ok a → a = id) : Effect db (.insert_one coll doc) x db'
  | update {coll : Coll} {filter : Filter} {update : Update} {n : Nat} {x : Except PyError Nat}
    {db' : Db} (hupdate : db.update_one coll filter update = some (n, db'))
    (hx : ∀ a, x = .ok a → a = n) : Effect db (.update_one coll filter update) x db'
  | delete {coll : Coll} {filter : Filter} {x : Except PyError Nat}
    (hx : ∀ a, x = .ok a → a = (db.delete_one coll filter).1) :
    Effect db (.delete_one coll filter) x (db.delete_one coll filter).2

/-- What a call does to the database. -/
theorem execute_effect {x : Except PyError c.Answer} (h : execute ω l c w = some (w', x)) :
    Effect w.db c x w'.db := by
  by_cases hmongo : c.changesMongo = false
  · rw [(execute_frame h).db hmongo]
    exact .same fun hc => by rw [hmongo] at hc; cases hc
  · cases c with
    | insert_one coll doc =>
      simp only [execute] at h
      split_ifs at h with hnew
      split at h
      · next db hinsert =>
        cases h
        exact .insert hnew hinsert fun a ha => (Except.ok.inj ha).symm
      · cases h
        exact .same fun _ => ⟨_, rfl⟩
    | update_one coll filter update =>
      simp only [execute] at h
      split at h
      · next n db hupdate =>
        cases h
        exact .update hupdate fun a ha => (Except.ok.inj ha).symm
      · cases h
        exact .same fun _ => ⟨_, rfl⟩
    -- a deletion is never refused
    | delete_one coll filter =>
      cases h
      exact .delete fun a ha => (Except.ok.inj ha).symm
    | _ => exact absurd rfl hmongo

/-- Where its answer is lost, the call has had its effect nevertheless. -/
theorem Effect.lost {db db' : Db} {x : Except PyError c.Answer} (h : Effect db c x db') (e : PyError) :
    Effect db c (.error e) db' := by
  cases h with
  | same => exact .same fun _ => ⟨e, rfl⟩
  | insert hnew hinsert => exact .insert hnew hinsert nofun
  | update hupdate => exact .update hupdate nofun
  | delete => exact .delete nofun

/-- What a step of a call does to Mongo. The loop over `scan_iter` does nothing to it. -/
theorem exec_effect {y : Option Scan ⊕ Except PyError c.Answer}
    (h : exec l c aux outcome w = some (w', y)) :
    ((∃ sc, y = .inl sc) ∧ w'.db = w.db) ∨ ∃ x, y = .inr x ∧ Effect w.db c x w'.db := by
  by_cases hloop : c.isLoop = true
  · cases c with
    | delete_scanned prefix_ =>
      have hdb : w'.db = w.db := by
        cases loopStep_cases h with
        | raises w₁ hw₁ =>
          rcases hw₁ with rfl | ⟨key, -, rfl⟩
          · rfl
          · rfl
        | _ => rfl
      rcases y with sc | x
      · exact .inl ⟨⟨sc, rfl⟩, hdb⟩
      · refine .inr ⟨x, rfl, ?_⟩
        rw [hdb]
        exact .same nofun
    | _ => cases hloop
  · right
    -- answered, lost after its effect, or failed before it
    rcases exec_atomic (Bool.not_eq_true _ ▸ hloop) h with
      ⟨ω, x, -, hx, hy⟩ | ⟨ω, x, -, hx, hy⟩ | ⟨-, hw, hy⟩
    · exact ⟨x, hy, execute_effect hx⟩
    · exact ⟨_, hy, (execute_effect hx).lost _⟩
    · refine ⟨_, hy, ?_⟩
      rw [hw]
      exact .same fun _ => ⟨_, rfl⟩

/-- An id that has been given stays given. -/
theorem Effect.issued {db db' : Db} {x : Except PyError c.Answer} (h : Effect db c x db') :
    db.issued ⊆ db'.issued := by
  cases h with
  | same => exact fun _ => id
  | insert hnew hinsert =>
    rw [(Db.docs_insert_one hinsert).2.2]
    exact List.subset_append_left _ _
  | update hupdate =>
    rw [(Db.docs_update_one hupdate).2.2]
    exact fun _ => id
  | @delete coll filter =>
    rw [(Db.docs_delete_one db coll filter).2.2]
    exact fun _ => id

/-- No call answers a request. -/
theorem exec_answered {y : Option Scan ⊕ Except PyError c.Answer}
    (h : exec l c aux outcome w = some (w', y)) : w'.answered = w.answered := by
  by_cases hloop : c.isLoop = true
  · cases c with
    | delete_scanned prefix_ =>
      cases loopStep_cases h with
      | raises w₁ hw₁ =>
        rcases hw₁ with rfl | ⟨key, -, rfl⟩
        · rfl
        · rfl
      | _ => rfl
    | _ => cases hloop
  · rcases exec_atomic (Bool.not_eq_true _ ▸ hloop) h with
      ⟨_, _, -, hx, -⟩ | ⟨_, _, -, hx, -⟩ | ⟨-, hw, -⟩
    · exact (execute_frame hx).answered
    · exact (execute_frame hx).answered
    · rw [hw]

variable [Bson]

/-! ## Requests in flight -/

section Tasks

variable {s s' : State} {a : Action} {i : Nat}

/-- What a step of a request does. -/
theorem call_set (h : step s (.call i outcome) = some s') :
    ∃ task task' c k y, s.tasks[i]? = some task ∧ s'.tasks = s.tasks.set i task' ∧
      task.prog = .call c k ∧
      exec task.label c task.aux outcome s.shared = some (s'.shared, y) ∧
      ((∃ sc, y = .inl sc ∧ task' = { task with aux := sc }) ∨
        ∃ r, y = .inr r ∧ task' = { task with prog := k r, aux := none }) := by
  obtain ⟨task, task', hi, htask, hset⟩ := Pool.advance_set h
  obtain ⟨c, k, hprog, hexec⟩ := Pool.Task.step_eq_some.mp htask
  rcases hexec with ⟨sc, hexec, htask'⟩ | ⟨r, hexec, htask'⟩
  · exact ⟨task, task', c, k, .inl sc, hi, hset, hprog, hexec, .inl ⟨sc, rfl, htask'⟩⟩
  · exact ⟨task, task', c, k, .inr r, hi, hset, hprog, hexec, .inr ⟨r, rfl, htask'⟩⟩

/-- A step of one request, the others untouched. -/
theorem call_eq_some (h : step s (.call i outcome) = some s') :
    ∃ l₁ task l₂ task' c k y, s.tasks[i]? = some task ∧ s.tasks = l₁ ++ task :: l₂ ∧
      s'.tasks = l₁ ++ task' :: l₂ ∧ task.prog = .call c k ∧
      exec task.label c task.aux outcome s.shared = some (s'.shared, y) ∧
      ((∃ sc, y = .inl sc ∧ task' = { task with aux := sc }) ∨
        ∃ r, y = .inr r ∧ task' = { task with prog := k r, aux := none }) := by
  obtain ⟨task, task', c, k, y, hi, hset, hrest⟩ := call_set h
  obtain ⟨l₁, l₂, htasks, -, hmiddle⟩ := Pool.split_getElem? hi
  exact ⟨l₁, task, l₂, task', c, k, y, hi, htasks, hset.trans (hmiddle task'), hrest⟩

/-- What the answer to a request does. -/
theorem finish_erase (h : step s (.finish i) = some s') :
    ∃ task r, s.tasks[i]? = some task ∧ Pool.outcome task.prog = some r ∧
      s' = ⟨{ s.shared with answered := s.shared.answered ++ [(task.label, r)] },
        s.tasks.eraseIdx i⟩ := by
  obtain ⟨⟨l, r, s₁⟩, hretire, rfl⟩ := Option.map_eq_some_iff.mp h
  obtain ⟨task, hi, rfl, hended, rfl⟩ := Pool.retire_eraseIdx hretire
  exact ⟨task, r, hi, hended, rfl⟩

/-- A request leaves with its answer. -/
theorem finish_eq_some (h : step s (.finish i) = some s') :
    ∃ l₁ task l₂ r, s.tasks = l₁ ++ task :: l₂ ∧ Pool.outcome task.prog = some r ∧
      s' = ⟨{ s.shared with answered := s.shared.answered ++ [(task.label, r)] }, l₁ ++ l₂⟩ := by
  obtain ⟨task, r, hi, hended, hs'⟩ := finish_erase h
  obtain ⟨l₁, l₂, htasks, herase, -⟩ := Pool.split_getElem? hi
  exact ⟨l₁, task, l₂, r, htasks, hended, herase ▸ hs'⟩

/-- **Tasks.** What holds of a request that arrives, and is kept by its steps, holds of every request
in flight. -/
theorem forall_tasks_step {P : Task → Prop} (harrives : ∀ r, P ⟨r, handle r, none⟩)
    (haux : ∀ task sc, P task → P { task with aux := sc })
    (hcall : ∀ (task : Task) c k aux outcome w w' r, P task → task.prog = .call c k →
      exec task.label c aux outcome w = some (w', .inr r) → P { task with prog := k r, aux := none })
    (hs : ∀ task ∈ s.tasks, P task) (h : step s a = some s') : ∀ task ∈ s'.tasks, P task := by
  cases a with
  | request r =>
    cases h
    intro task htask
    rcases List.mem_append.mp htask with htask | htask
    · exact hs task htask
    · rw [List.mem_singleton.mp htask]
      exact harrives r
  | call i outcome =>
    obtain ⟨l₁, task, l₂, task', c, k, y, -, htasks, htasks', hprog, hexec, hy⟩ := call_eq_some h
    rw [htasks] at hs
    rw [htasks']
    intro t ht
    rcases Lists.mem_middle.mp ht with rfl | ht
    · -- the request that has moved
      have htask := hs task (Lists.mem_middle.mpr (.inl rfl))
      rcases hy with ⟨sc, -, rfl⟩ | ⟨r, rfl, rfl⟩
      · exact haux task sc htask
      · exact hcall task c k _ _ _ _ r htask hprog hexec
    · exact hs t (Lists.mem_middle.mpr (.inr ht))
  | finish i =>
    obtain ⟨l₁, task, l₂, r, htasks, -, rfl⟩ := finish_eq_some h
    rw [htasks] at hs
    exact fun t ht => hs t (Lists.mem_middle.mpr (.inr ht))
  | tick ms =>
    cases h
    exact hs

/-- The request keeps to the protocol in what it still has to do. -/
def KeepsProtocol (task : Task) : Prop :=
  ∃ g, task.prog.Obeys (monitor task.label) (Ended task.label) g

/-- Every step keeps the requests to their protocol. -/
theorem keepsProtocol_step (hs : ∀ task ∈ s.tasks, KeepsProtocol task) (h : step s a = some s') :
    ∀ task ∈ s'.tasks, KeepsProtocol task := by
  refine forall_tasks_step (fun r => ⟨.start, handle_obeys r⟩) (fun _ _ => id) ?_ hs h
  intro task c k aux outcome w w' r ⟨g, hobeys⟩ hprog _
  rw [hprog] at hobeys
  exact ⟨_, hobeys.2 r⟩

/-- **Documents.** What holds of every document a request inserts, and is kept by every update it
makes, is kept by every step. -/
theorem forall_docs_step {P : Coll → Doc → Prop}
    (hinsert : ∀ (l : Request) (g : Ghost) coll doc id, g.allows l (.insert_one coll doc) →
      P coll (("_id", .oid id) :: doc))
    (hupdate : ∀ (l : Request) (g : Ghost) coll filter update d d',
      g.allows l (.update_one coll filter update) → update.apply d = some d' → P coll d → P coll d')
    (htasks : ∀ task ∈ s.tasks, KeepsProtocol task) (h : step s a = some s')
    (hs : ∀ c, ∀ d ∈ s.shared.db.docs c, P c d) : ∀ c, ∀ d ∈ s'.shared.db.docs c, P c d := by
  cases a with
  | request r =>
    cases h
    exact hs
  | call i outcome =>
    obtain ⟨l₁, task, l₂, task', c, k, y, hi, -, -, hprog, hexec, -⟩ := call_eq_some h
    obtain ⟨g, hobeys⟩ := htasks task (List.mem_of_getElem? hi)
    rw [hprog] at hobeys
    rcases exec_effect hexec with ⟨-, hdb⟩ | ⟨x, -, heffect⟩
    · rw [hdb]
      exact hs
    · intro c' d hd
      -- only inserts and updates make new documents
      generalize s'.shared.db = db' at heffect hd
      cases heffect with
      | same => exact hs c' d hd
      | insert hnew hdb =>
        rcases Db.mem_insert_one hdb hd with hd | ⟨rfl, rfl⟩
        · exact hs c' d hd
        · exact hinsert task.label g _ _ _ hobeys.1
      | update hdb =>
        rcases Db.mem_update_one hdb hd with hd | ⟨rfl, d₀, hd₀, -, happly, -⟩
        · exact hs c' d hd
        · exact hupdate task.label g _ _ _ d₀ d hobeys.1 happly (hs c' d₀ hd₀)
      | delete => exact hs c' d (Db.mem_delete_one hd)
  | finish i =>
    obtain ⟨l₁, task, l₂, r, -, -, rfl⟩ := finish_eq_some h
    exact hs
  | tick ms =>
    cases h
    exact hs

/-- Ids that were given stay given. -/
theorem issued_step (h : step s a = some s') : s.shared.db.issued ⊆ s'.shared.db.issued := by
  cases a with
  | request r =>
    cases h
    exact fun _ => id
  | call i outcome =>
    obtain ⟨task, task', c, k, y, -, -, -, hexec, -⟩ := call_set h
    rcases exec_effect hexec with ⟨-, hdb⟩ | ⟨x, -, heffect⟩
    · rw [hdb]
      exact fun _ => id
    · exact heffect.issued
  | finish i =>
    obtain ⟨task, r, -, -, rfl⟩ := finish_erase h
    exact fun _ => id
  | tick ms =>
    cases h
    exact fun _ => id

end Tasks

end SocialNetwork.MongoApi

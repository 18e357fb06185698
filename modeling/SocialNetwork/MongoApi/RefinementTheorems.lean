import SocialNetwork.MongoApi.CoherenceTheorems
import SocialNetwork.MongoApi.Deeds

/-!
# Refinement

`deeds` lists what the steps of a run have done to the network. A run does to the network what its
deeds do, one after the other (`network_refined`), and every request has its deed done at most once,
whatever fails (`deeds_accounted`).
-/

namespace SocialNetwork.MongoApi

open DocStore KeyValue

/-! ## What a run has done -/

/-- A deed that has been done, and the request that asked for it. -/
structure Done where
  request : Request
  id : ObjectId
  deed : Deed
deriving DecidableEq, Repr

/-- What the step of a request does, if it writes. -/
def deeds [Bson] (s : State) : Action → List Done
  | .call i outcome =>
    match s.tasks[i]?, outcome.choice? with
    | some task, some ω =>
      match task.prog.head? with
      | none => []
      | some c =>
        let id := task.label.target.getD ω.id
        match s.shared.db.write id c, task.label.deed c.created_at with
        | some _, some deed => [⟨task.label, id, deed⟩]
        | _, _ => []
    | _, _ => []
  | _ => []

/-- The deeds of a run, in order. -/
def ledger [Bson] (s : State) (as : List Action) : List Done := Runs.outputs step deeds s as

/-- A request acts on the network by its deed. -/
def Network.perform (net : Network) (x : Done) : Option Network := net.step x.id x.deed

/-! ## One call -/

section Calls

variable {l : Request} {c : Call} {aux : Option Scan} {outcome : Outcome} {w w' : World} {g : Stage}

/-- The database does not show a write that has matched nothing. -/
theorem network_congr {db db' : Db} (hdocs : ∀ c, db'.docs c = db.docs c)
    (hissued : db'.issued = db.issued) : db'.network = db.network := by
  unfold Db.network Db.lookup
  simp only [hdocs, hissued]

/-- A write takes effect as `Db.write` says, or it leaves the network alone. -/
theorem network_of_execute {ω : Choice} {x : Except PyError c.Answer}
    (h : execute ω l c w = some (w', x)) (hc : c.changesMongo = true) :
    match w.db.write ω.id c with
    | some db' => w'.db = db' ∧ ∀ g, g ≠ .void → Stage.next g c x = .done
    | none => w'.db.network = w.db.network ∧ ∀ g, g ≠ .void → Stage.next g c x = g := by
  cases c with
  | insert_one coll doc =>
    simp only [execute] at h
    split_ifs at h with hnew
    simp only [Db.write, if_neg hnew]
    cases hinsert : w.db.insert_one coll ω.id doc with
    | some db =>
      rw [hinsert] at h
      cases h
      exact ⟨rfl, fun g hg => Stage.next_insert_one hg coll doc ω.id⟩
    | none =>
      rw [hinsert] at h
      cases h
      exact ⟨rfl, fun g hg => Stage.next_refusal hg _ _⟩
  | update_one coll filter update =>
    simp only [execute] at h
    simp only [Db.write]
    cases hupdate : w.db.update_one coll filter update with
    | some x =>
      obtain ⟨n, db⟩ := x
      rw [hupdate] at h
      cases h
      obtain ⟨hdocs, hother, hissued⟩ := Db.docs_update_one hupdate
      rcases hdocs with ⟨_, _, _, _, -, -, -, rfl, -, -⟩ | ⟨-, rfl, hsame⟩
      · exact ⟨rfl, fun g hg => Stage.next_update_one hg coll filter update 1⟩
      -- nothing has been found, so the documents are those of before
      · refine ⟨network_congr (fun c' => ?_) hissued,
          fun g hg => Stage.next_update_one hg coll filter update 0⟩
        by_cases hc' : c' = coll
        · rw [hc', hsame]
        · exact hother c' hc'
    | none =>
      rw [hupdate] at h
      cases h
      exact ⟨rfl, fun g hg => Stage.next_refusal hg _ _⟩
  | delete_one coll filter =>
    cases h
    simp only [Db.write]
    obtain ⟨hdocs, hother, hissued⟩ := Db.docs_delete_one w.db coll filter
    have hnext := fun (g : Stage) (hg : g ≠ .void) =>
      Stage.next_delete_one hg coll filter (w.db.delete_one coll filter).1
    rcases hdocs with ⟨_, _, _, -, -, -, hn, -⟩ | ⟨-, -, hn, hsame⟩
    · rw [if_neg (by omega)]
      exact ⟨rfl, fun g hg => (hnext g hg).trans (by rw [hn]; rfl)⟩
    · rw [if_pos hn]
      refine ⟨network_congr (fun c' => ?_) hissued, fun g hg => (hnext g hg).trans (by rw [hn]; rfl)⟩
      by_cases hc' : c' = coll
      · rw [hc', hsame]
      · exact hother c' hc'
  | _ => cases hc

/-- The id of a new document is not part of the call. -/
theorem Deed.call_creates {deed : Deed} (h : deed.creates = true) (id id' : ObjectId) :
    deed.call id = deed.call id' := by
  cases deed with
  | register user created_at => rfl
  | publish author post created_at => rfl
  | send from_ to_ message created_at => rfl
  | _ => cases h

/-- Only a new document needs an id. -/
theorem write_call {deed : Deed} (h : deed.creates = false) (db : Db) (id id' id₀ : ObjectId) :
    db.write id (deed.call id₀) = db.write id' (deed.call id₀) := by
  cases deed with
  | register user created_at => cases h
  | publish author post created_at => cases h
  | send from_ to_ message created_at => cases h
  | _ => rfl

variable [Bson]

/-- A request that makes a document is about no other. -/
theorem target_eq_none {created_at : Nat} {deed : Deed} (h : l.deed created_at = some deed)
    (hcreates : deed.creates = true) : l.target = none := by
  cases l with
  | like_post post_id user_id =>
    obtain ⟨user, -, rfl⟩ := Option.map_eq_some_iff.mp h
    cases hcreates
  | unlike_post post_id user_id =>
    obtain ⟨user, -, rfl⟩ := Option.map_eq_some_iff.mp h
    cases hcreates
  | add_comment post_id user_id text =>
    obtain ⟨user, -, rfl⟩ := Option.map_eq_some_iff.mp h
    cases hcreates
  | update_user user_id data =>
    cases h
    cases hcreates
  | delete_user user_id =>
    cases h
    cases hcreates
  | mark_message_as_read message_id =>
    cases h
    cases hcreates
  | delete_message message_id =>
    cases h
    cases hcreates
  | _ => rfl

/-- The write of a request is its deed, on its target or on a document with a new id. -/
theorem Request.Performs.deed (h : l.Performs c) (db : Db) (id : ObjectId) :
    ∃ deed, l.deed c.created_at = some deed ∧
      (deed.creates = true ∨ l.target = some (l.target.getD id)) ∧
      c = deed.call (l.target.getD id) ∧ db.write (l.target.getD id) c = db.write id c := by
  obtain ⟨created_at, deed, id₀, hdeed, htarget, rfl⟩ := h
  refine ⟨deed, Request.deed_created_at hdeed id₀, ?_⟩
  by_cases hcreates : deed.creates = true
  · rw [target_eq_none hdeed hcreates]
    exact ⟨.inl hcreates, Deed.call_creates hcreates _ _, rfl⟩
  · rw [htarget.resolve_left hcreates]
    exact ⟨.inr rfl, rfl, write_call (Bool.not_eq_true _ ▸ hcreates) db _ _ _⟩

end Calls

/-! ## One step -/

/-- The stage of the request fits what it still has to do. -/
def FitsDeed [Bson] (task : Task) (g : Stage) : Prop :=
  g ≠ .void ∧ task.prog.Obeys (deedMonitor task.label) (Tallies task.label) g

/-- The deed is what its request asks for. -/
def Done.Asked [Bson] (x : Done) : Prop :=
  ∃ created_at, x.request.deed created_at = some x.deed ∧
    (x.deed.creates = true ∨ x.request.target = some x.id)

section Steps

variable [Bson] {s s' : State} {i : Nat} {outcome : Outcome} {task : Task} {g : Stage}

/-- A call is a deed when the database executes it and something changes. -/
theorem deeds_call (hi : s.tasks[i]? = some task) {c : Call} (hc : task.prog.head? = some c) :
    deeds s (.call i outcome) =
      match outcome.choice? with
      | none => []
      | some ω =>
        match s.shared.db.write (task.label.target.getD ω.id) c, task.label.deed c.created_at with
        | some _, some deed => [⟨task.label, task.label.target.getD ω.id, deed⟩]
        | _, _ => [] := by
  simp only [deeds, hi]
  cases outcome.choice? with
  | none => rfl
  | some ω => simp only [hc]

/-- What is no write does nothing. -/
theorem deeds_read (hi : s.tasks[i]? = some task) {c : Call} (hc : task.prog.head? = some c)
    (hread : c.changesMongo = false) : deeds s (.call i outcome) = [] := by
  have hwrite : ∀ id, s.shared.db.write id c = none := by
    intro id
    cases c with
    | insert_one coll doc => cases hread
    | update_one coll filter update => cases hread
    | delete_one coll filter => cases hread
    | _ => rfl
  rw [deeds_call hi hc]
  cases outcome.choice? with
  | none => rfl
  | some ω => simp only [hwrite]

/-- What the step of a request does to the network, and to its own stage. -/
inductive DeedStep (l : Request) (outcome : Outcome) (db db' : Db) (g : Stage) :
    List Done → Stage → Prop
  | nothing (h : db'.network = db.network) : DeedStep l outcome db db' g [] g
  | lost (h : db'.network = db.network) (hg : g = .pending) (hfails : ∀ ω, outcome ≠ .ok ω) :
    DeedStep l outcome db db' g [] .lost
  | done (x : Done) (hl : x.request = l) (hasked : x.Asked)
    (h : db.network.perform x = some db'.network) (hg : g = .pending) (g' : Stage)
    (hg' : g' = .done ∨ g' = .lost ∧ ∀ ω, outcome ≠ .ok ω) : DeedStep l outcome db db' g [x] g'

/-- The step of a request that writes. -/
theorem deedStep_write (hi : s.tasks[i]? = some task) {c : Call} (hc : task.prog.head? = some c)
    (hwrites : c.changesMongo = true) (hperforms : task.label.Performs c) {ω : Choice}
    (hω : outcome.choice? = some ω) {x r : Except PyError c.Answer}
    (hexecute : execute ω task.label c s.shared = some (s'.shared, x))
    (hr : r = x ∨ r = .error .connectionError ∧ ∀ ω, outcome ≠ .ok ω) :
    DeedStep task.label outcome s.shared.db s'.shared.db .pending (deeds s (.call i outcome))
      (Stage.pending.next c r) := by
  obtain ⟨deed, hdeed, htarget, hcall, hwrite⟩ := hperforms.deed s.shared.db ω.id
  have hnetwork := network_of_execute hexecute hwrites
  have hlost := Stage.next_connectionError (g := .pending) nofun hwrites
  rw [deeds_call hi hc, hω]
  simp only [hwrite, hdeed]
  cases hdb : s.shared.db.write ω.id c with
  | none =>
    rw [hdb] at hnetwork
    rcases hr with rfl | ⟨rfl, hfails⟩
    · rw [hnetwork.2 .pending nofun]
      exact .nothing hnetwork.1
    · rw [hlost]
      exact .lost hnetwork.1 rfl hfails
  | some db' =>
    rw [hdb] at hnetwork
    -- the deed is done, though the request may not learn of it
    have hperform : s.shared.db.network.perform ⟨task.label, task.label.target.getD ω.id, deed⟩ =
        some s'.shared.db.network := by
      rw [hnetwork.1]
      apply step_of_write
      rw [← hcall, hwrite, hdb]
    refine .done _ rfl ⟨_, hdeed, htarget⟩ hperform rfl _ ?_
    rcases hr with rfl | ⟨rfl, hfails⟩
    · exact .inl (hnetwork.2 .pending nofun)
    · exact .inr ⟨hlost, hfails⟩

/-- **Steps of requests.** -/
theorem deedStep (hi : s.tasks[i]? = some task) (hfits : FitsDeed task g)
    (h : step s (.call i outcome) = some s') :
    ∃ task' g', s'.tasks = s.tasks.set i task' ∧ task'.label = task.label ∧ FitsDeed task' g' ∧
      s'.shared.answered = s.shared.answered ∧
      DeedStep task.label outcome s.shared.db s'.shared.db g (deeds s (.call i outcome)) g' := by
  obtain ⟨t, task', ht, hstep, htasks⟩ := Pool.advance_set h
  rw [hi] at ht
  cases ht
  obtain ⟨hvoid, hobeys⟩ := hfits
  obtain ⟨c, k, hprog, hcall⟩ := Pool.Task.step_eq_some.mp hstep
  have hc : task.prog.head? = some c := by
    rw [hprog]
    rfl
  rw [hprog] at hobeys
  rcases hcall with ⟨sc, hexec, rfl⟩ | ⟨r, hexec, rfl⟩
  · -- the loop over the keys goes on
    have hread : c.changesMongo = false := by
      have hloop := isLoop_of_exec_inl hexec
      cases c with
      | delete_scanned prefix_ => rfl
      | _ => cases hloop
    rcases exec_effect hexec with ⟨-, hdb⟩ | ⟨x, hx, -⟩
    · refine ⟨_, g, htasks, rfl, ⟨hvoid, ?_⟩, exec_answered hexec, ?_⟩
      · rw [hprog]
        exact hobeys
      · rw [deeds_read hi hc hread]
        exact .nothing (by rw [hdb])
    · cases hx
  · have hcalled : ∀ e, r = .error e → e.ofCall = true := by
      rintro e rfl
      exact exec_ofCall hexec
    have hvoid' : g.next c r ≠ .void := next_ne_void hvoid hcalled
    refine ⟨_, _, htasks, rfl, ⟨hvoid', hobeys.2 r⟩, exec_answered hexec, ?_⟩
    cases hwrites : c.changesMongo with
    | false =>
      have hdb : s'.shared.db = s.shared.db := by
        rcases exec_effect hexec with ⟨-, hdb⟩ | ⟨x, -, heffect⟩
        · exact hdb
        · generalize s'.shared.db = db' at heffect
          cases heffect with
          | same => rfl
          | _ => cases hwrites
      rw [deeds_read hi hc hwrites, next_read hvoid hwrites hcalled]
      exact .nothing (by rw [hdb])
    | true =>
      obtain ⟨rfl, hperforms⟩ := (hobeys.1 hwrites).resolve_left hvoid
      have hloop : c.isLoop = false := by
        cases c with
        | delete_scanned prefix_ => cases hwrites
        | _ => rfl
      rcases exec_atomic hloop hexec with ⟨ω, x, rfl, hx, hr⟩ | ⟨ω, x, rfl, hx, hr⟩ | ⟨⟨ω, rfl⟩, hw, hr⟩
      · cases hr
        exact deedStep_write hi hc hwrites hperforms rfl hx (.inl rfl)
      · cases hr
        exact deedStep_write hi hc hwrites hperforms rfl hx (.inr ⟨rfl, nofun⟩)
      · cases hr
        rw [deeds_call hi hc]
        have hlost := Stage.next_connectionError (g := .pending) nofun hwrites
        show DeedStep _ _ _ _ _ [] (Stage.pending.next c (.error .connectionError))
        rw [hlost]
        exact .lost (by rw [hw]) rfl nofun

/-- A step keeps every request at a stage of its deed. -/
theorem fitsDeed_step {a : Action} (hs : ∀ task ∈ s.tasks, ∃ g, FitsDeed task g)
    (h : step s a = some s') : ∀ task ∈ s'.tasks, ∃ g, FitsDeed task g := by
  refine forall_tasks_step (fun r => ⟨.pending, nofun, handle_deed r⟩) (fun _ _ => id) ?_ hs h
  intro task c k aux outcome w w' r ⟨g, hvoid, hobeys⟩ hprog hexec
  rw [hprog] at hobeys
  refine ⟨_, next_ne_void hvoid ?_, hobeys.2 r⟩
  rintro e rfl
  exact exec_ofCall hexec

/-- The network changes by calls only. -/
theorem db_step {a : Action} (h : step s a = some s') :
    (∃ i outcome, a = .call i outcome) ∨ deeds s a = [] ∧ s'.shared.db = s.shared.db := by
  cases a with
  | call i outcome => exact .inl ⟨i, outcome, rfl⟩
  | request r =>
    refine .inr ⟨rfl, ?_⟩
    cases h
    rfl
  | finish i =>
    refine .inr ⟨rfl, ?_⟩
    obtain ⟨_, _, _, _, -, -, rfl⟩ := finish_eq_some h
    rfl
  | tick ms =>
    refine .inr ⟨rfl, ?_⟩
    cases h
    rfl

/-- **Steps.** What a step does to the network is what its deeds do. -/
theorem perform_step {a : Action} (hs : ∀ task ∈ s.tasks, ∃ g, FitsDeed task g)
    (h : step s a = some s') :
    Runs.exec Network.perform s.shared.db.network (deeds s a) = some s'.shared.db.network ∧
      ∀ x ∈ deeds s a, x.Asked := by
  rcases db_step h with ⟨i, outcome, rfl⟩ | ⟨hdeeds, hdb⟩
  · obtain ⟨l₁, task, l₂, task', c, k, y, hi, -⟩ := call_eq_some h
    obtain ⟨g, hg⟩ := hs task (List.mem_of_getElem? hi)
    obtain ⟨-, g', -, -, -, -, hdeed⟩ := deedStep hi hg h
    generalize deeds s (.call i outcome) = xs at hdeed
    cases hdeed with
    | nothing hsame =>
      rw [Runs.exec_nil, hsame]
      exact ⟨rfl, fun _ hx => absurd hx List.not_mem_nil⟩
    | lost hsame =>
      rw [Runs.exec_nil, hsame]
      exact ⟨rfl, fun _ hx => absurd hx List.not_mem_nil⟩
    | done x hl hasked hperform =>
      refine ⟨?_, fun y hy => ?_⟩
      · rw [Runs.exec_cons, hperform]
        rfl
      · rw [List.mem_singleton.mp hy]
        exact hasked
  · rw [hdeeds, Runs.exec_nil, hdb]
    exact ⟨rfl, fun _ hx => absurd hx List.not_mem_nil⟩

end Steps

/-! ## Runs -/

/-- A run does to the network what its deeds do in their order. -/
theorem network_exec [Bson] {db : Db} {as : List Action} {s : State}
    (hrun : Runs.exec step (State.init db) as = some s) :
    Runs.exec Network.perform db.network (ledger (State.init db) as) = some s.shared.db.network ∧
      ∀ x ∈ ledger (State.init db) as, x.Asked := by
  let I : State → List Done → Prop := fun s xs => (∀ task ∈ s.tasks, ∃ g, FitsDeed task g) ∧
    Runs.exec Network.perform db.network xs = some s.shared.db.network ∧ ∀ x ∈ xs, x.Asked
  have hinit : I (State.init db) [] :=
    ⟨fun _ htask => absurd htask List.not_mem_nil, Runs.exec_nil _,
      fun _ hx => absurd hx List.not_mem_nil⟩
  have hstep : ∀ m a m' xs, I m xs → step m a = some m' → I m' (xs ++ deeds m a) := by
    intro m a m' xs ⟨htasks, hexec, hasked⟩ hstep
    obtain ⟨hperform, hdeeds⟩ := perform_step htasks hstep
    refine ⟨fitsDeed_step htasks hstep, ?_, fun x hx => ?_⟩
    · rw [Runs.exec_append, hexec]
      exact hperform
    · rcases List.mem_append.mp hx with hx | hx
      · exact hasked x hx
      · exact hdeeds x hx
  exact (Runs.exec_outputs hstep hinit hrun).2

/-! ## Books -/

/-- The requests that have arrived, in order. -/
def arrivals (as : List Action) : List Request :=
  as.filterMap fun
    | .request r => some r
    | _ => none

/-- How many of the requests equal to `r` that are in flight are at a stage. -/
def inFlight (r : Request) (g : Stage) (xs : List (Task × Stage)) : Nat :=
  xs.countP fun x => x.1.label = r ∧ x.2 = g

/-- How many answers to requests equal to `r` are of a kind. -/
def answerCount (r : Request) (kind : Except PyError Reply → Bool)
    (answered : List (Request × Except PyError Reply)) : Nat :=
  answered.countP fun x => x.1 = r ∧ kind x.2

/-- How often a request has been carried out. -/
def dones (r : Request) (xs : List Done) : Nat := xs.countP fun x => x.request = r

/-- The books of a request after a run: every request in flight is at a stage, and every deed and
every answer is set against a request that has arrived. -/
structure Books [Bson] (r : Request) (db : Db) (as : List Action) (s : State) (xs : List (Task × Stage)) :
    Prop where
  tasks : xs.map Prod.fst = s.tasks
  fits : ∀ x ∈ xs, FitsDeed x.1 x.2
  asked : dones r (ledger (State.init db) as) + inFlight r .pending xs ≤ (arrivals as).count r
  done : r.writes = true → answerCount r (·.isOk) s.shared.answered + inFlight r .done xs ≤
    dones r (ledger (State.init db) as)
  refused : (∀ a ∈ as, a.answers) → (∀ x ∈ xs, x.2 ≠ .lost) ∧
    dones r (ledger (State.init db) as) + inFlight r .pending xs +
      answerCount r isStatus s.shared.answered ≤ (arrivals as).count r

section Books

variable {r : Request} {db : Db} {as : List Action} {s s' : State} {xs : List (Task × Stage)}

theorem inFlight_set {i : Nat} {task task' : Task} {g : Stage} (h : xs[i]? = some (task, g))
    (hlabel : task'.label = task.label) (g' g₀ : Stage) :
    inFlight r g₀ (xs.set i (task', g')) + (if task.label = r ∧ g = g₀ then 1 else 0) =
      inFlight r g₀ xs + if task.label = r ∧ g' = g₀ then 1 else 0 := by
  have hcount := Lists.countP_set (p := fun x : Task × Stage => x.1.label = r ∧ x.2 = g₀) h (task', g')
  simp only [decide_eq_true_eq, hlabel] at hcount
  exact hcount

theorem inFlight_eraseIdx {i : Nat} {task : Task} {g : Stage} (h : xs[i]? = some (task, g))
    (g₀ : Stage) :
    inFlight r g₀ (xs.eraseIdx i) + (if task.label = r ∧ g = g₀ then 1 else 0) =
      inFlight r g₀ xs := by
  have hcount := Lists.countP_eraseIdx (p := fun x : Task × Stage => x.1.label = r ∧ x.2 = g₀) h
  simp only [decide_eq_true_eq] at hcount
  exact hcount

theorem dones_append (ys zs : List Done) : dones r (ys ++ zs) = dones r ys + dones r zs :=
  List.countP_append

theorem dones_singleton (x : Done) : dones r [x] = if x.request = r then 1 else 0 := by
  rw [dones, List.countP_singleton]
  simp only [decide_eq_true_eq]

theorem answerCount_append (kind : Except PyError Reply → Bool) (l : Request)
    (reply : Except PyError Reply) (answered : List (Request × Except PyError Reply)) :
    answerCount r kind (answered ++ [(l, reply)]) =
      answerCount r kind answered + if l = r ∧ kind reply = true then 1 else 0 := by
  rw [answerCount, List.countP_append, List.countP_singleton]
  simp only [decide_eq_true_eq]
  rfl

theorem arrivals_concat (as : List Action) (a : Action) (ha : ∀ r, a ≠ .request r) :
    arrivals (as ++ [a]) = arrivals as := by
  unfold arrivals
  rw [List.filterMap_append]
  cases a with
  | request r => exact absurd rfl (ha r)
  | _ => exact List.append_nil _

theorem arrivals_request (as : List Action) (r : Request) :
    arrivals (as ++ [.request r]) = arrivals as ++ [r] := by
  unfold arrivals
  rw [List.filterMap_append]
  rfl

/-- A request in flight has its stage. -/
theorem exists_stage (htasks : xs.map Prod.fst = s.tasks) {i : Nat} {task : Task}
    (hi : s.tasks[i]? = some task) : ∃ g, xs[i]? = some (task, g) := by
  rw [← htasks, List.getElem?_map] at hi
  obtain ⟨⟨_, g⟩, hx, rfl⟩ := Option.map_eq_some_iff.mp hi
  exact ⟨g, hx⟩

variable [Bson]

/-- The ledger grows by what the last step does. -/
theorem ledger_concat (hrun : Runs.exec step (State.init db) as = some s) (a : Action) :
    ledger (State.init db) (as ++ [a]) = ledger (State.init db) as ++ deeds s a :=
  Runs.outputs_concat hrun a

/-- A deed takes its request from `pending`, and brings it to `done` if anything does. -/
theorem DeedStep.counts {l : Request} {outcome : Outcome} {db₁ db₂ : Db} {g g' : Stage}
    {ys : List Done} (h : DeedStep l outcome db₁ db₂ g ys g') :
    dones r ys + (if l = r ∧ g' = .pending then 1 else 0) ≤
        (if l = r ∧ g = .pending then 1 else 0) ∧
      (if l = r ∧ g' = .done then 1 else 0) ≤
        (if l = r ∧ g = .done then 1 else 0) + dones r ys := by
  cases h with
  | nothing hsame =>
    have hnil : dones r [] = 0 := rfl
    omega
  | lost hsame hg hfails =>
    subst hg
    have hnil : dones r [] = 0 := rfl
    simp [hnil]
  | done x hl hasked hperform hg g' hg' =>
    subst hg
    rw [dones_singleton, hl]
    rcases hg' with rfl | ⟨rfl, -⟩
    · simp
    · simp

/-- A call that answers loses nothing. -/
theorem DeedStep.ne_lost {l : Request} {outcome : Outcome} {db₁ db₂ : Db} {g g' : Stage}
    {ys : List Done} (h : DeedStep l outcome db₁ db₂ g ys g') {ω : Choice} (hω : outcome = .ok ω)
    (hg : g ≠ .lost) : g' ≠ .lost := by
  cases h with
  | nothing hsame => exact hg
  | lost hsame hg hfails => exact absurd hω (hfails ω)
  | done x hl hasked hperform hg g' hg' =>
    rcases hg' with rfl | ⟨rfl, hfails⟩
    · exact nofun
    · exact absurd hω (hfails ω)

/-- A call moves at most one request from waiting to done. -/
theorem books_call (hrun : Runs.exec step (State.init db) as = some s) (hbooks : Books r db as s xs)
    {i : Nat} {outcome : Outcome} (h : step s (.call i outcome) = some s') :
    ∃ xs', Books r db (as ++ [.call i outcome]) s' xs' := by
  obtain ⟨task, _, hi, -, -⟩ := Pool.advance_set h
  obtain ⟨g, hx⟩ := exists_stage hbooks.tasks hi
  have hfit : FitsDeed task g := hbooks.fits _ (List.mem_of_getElem? hx)
  obtain ⟨task', g', htasks, hlabel, hfits, hanswered, hdeed⟩ := deedStep hi hfit h
  obtain ⟨hdones, hdone⟩ := hdeed.counts (r := r)
  -- the request has changed its stage, the others have not
  have hset := inFlight_set (r := r) hx hlabel g'
  have hpending' := hset .pending
  have hdone' := hset .done
  have harrived : arrivals (as ++ [.call i outcome]) = arrivals as :=
    arrivals_concat as _ nofun
  refine ⟨xs.set i (task', g'), ?_, ?_, ?_, ?_, ?_⟩
  · rw [List.map_set, hbooks.tasks, htasks]
  · intro x hx'
    rcases List.mem_or_eq_of_mem_set hx' with hx' | rfl
    · exact hbooks.fits x hx'
    · exact hfits
  · rw [ledger_concat hrun, dones_append, harrived]
    have hold := hbooks.asked
    omega
  · intro hwrites
    rw [ledger_concat hrun, dones_append, hanswered]
    have hold := hbooks.done hwrites
    omega
  · intro hanswers
    obtain ⟨hnone, hold⟩ := hbooks.refused fun a ha => hanswers a (List.mem_append_left _ ha)
    obtain ⟨ω, hω⟩ : Action.answers (.call i outcome) :=
      hanswers _ (List.mem_append_right _ (List.mem_singleton_self _))
    refine ⟨fun x hx' => ?_, ?_⟩
    · rcases List.mem_or_eq_of_mem_set hx' with hx' | rfl
      · exact hnone x hx'
      · exact hdeed.ne_lost hω (hnone _ (List.mem_of_getElem? hx))
    · rw [ledger_concat hrun, dones_append, harrived, hanswered]
      omega

/-- A request arrives, and waits. -/
theorem books_request (hrun : Runs.exec step (State.init db) as = some s)
    (hbooks : Books r db as s xs) {r' : Request} (h : step s (.request r') = some s') :
    ∃ xs', Books r db (as ++ [.request r']) s' xs' := by
  cases h
  have hledger : ledger (State.init db) (as ++ [.request r']) = ledger (State.init db) as :=
    (ledger_concat hrun _).trans (List.append_nil _)
  have harrived : (arrivals (as ++ [.request r'])).count r =
      (arrivals as).count r + if r' = r then 1 else 0 := by
    rw [arrivals_request, List.count_append, List.count_singleton]
    simp only [beq_iff_eq]
  -- it is in flight, and pending
  have hflight : ∀ g, inFlight r g (xs ++ [(⟨r', handle r', none⟩, .pending)]) =
      inFlight r g xs + if r' = r ∧ Stage.pending = g then 1 else 0 := by
    intro g
    rw [inFlight, List.countP_append, List.countP_singleton]
    simp only [decide_eq_true_eq]
    rfl
  have hpending := hflight .pending
  have hdone := hflight .done
  simp only [and_true, and_false, if_false, reduceCtorEq] at hpending hdone
  refine ⟨xs ++ [(⟨r', handle r', none⟩, .pending)], ?_, ?_, ?_, ?_, ?_⟩
  · rw [List.map_append, hbooks.tasks]
    rfl
  · intro x hx
    rcases List.mem_append.mp hx with hx | hx
    · exact hbooks.fits x hx
    · cases List.mem_singleton.mp hx
      exact ⟨nofun, handle_deed r'⟩
  · rw [hledger, harrived]
    have hold := hbooks.asked
    omega
  · intro hwrites
    have hold := hbooks.done hwrites
    rw [hledger, hdone]
    exact hold
  · intro hanswers
    obtain ⟨hnone, hold⟩ := hbooks.refused fun a ha => hanswers a (List.mem_append_left _ ha)
    refine ⟨fun x hx => ?_, ?_⟩
    · rcases List.mem_append.mp hx with hx | hx
      · exact hnone x hx
      · cases List.mem_singleton.mp hx
        exact nofun
    · rw [hledger, harrived]
      have hsame : answerCount r isStatus (Pool.spawn server r' (handle r') s).shared.answered =
          answerCount r isStatus s.shared.answered := rfl
      omega

/-- The answer tallies with the stage. -/
theorem FitsDeed.tallies {task : Task} {g : Stage} {reply : Except PyError Reply}
    (h : FitsDeed task g) (hended : Pool.outcome task.prog = some reply) :
    (task.label.writes = true → reply.isOk = true → g = .done) ∧
      (isStatus reply = true → g ≠ .done) := by
  obtain ⟨hvoid, hobeys⟩ := h
  cases hprog : task.prog with
  | ret a =>
    rw [hprog] at hobeys hended
    cases hended
    exact hobeys.resolve_left hvoid
  | raise e =>
    rw [hprog] at hobeys hended
    cases hended
    exact hobeys.resolve_left hvoid
  | call c k =>
    rw [hprog] at hended
    cases hended

/-- A request is answered, and is no longer in flight. -/
theorem books_finish (hrun : Runs.exec step (State.init db) as = some s)
    (hbooks : Books r db as s xs) {i : Nat} (h : step s (.finish i) = some s') :
    ∃ xs', Books r db (as ++ [.finish i]) s' xs' := by
  obtain ⟨⟨_, reply, _⟩, hretire, hs'⟩ := Option.map_eq_some_iff.mp h
  obtain ⟨task, hi, rfl, hended, rfl⟩ := Pool.retire_eraseIdx hretire
  have htasks : s'.tasks = s.tasks.eraseIdx i := by
    rw [← hs']
  have hanswered : s'.shared.answered = s.shared.answered ++ [(task.label, reply)] := by
    rw [← hs']
  obtain ⟨g, hx⟩ := exists_stage hbooks.tasks hi
  have hfit : FitsDeed task g := hbooks.fits _ (List.mem_of_getElem? hx)
  obtain ⟨hok, hstatus⟩ := hfit.tallies hended
  have herase := inFlight_eraseIdx (r := r) hx
  have hpending := herase .pending
  have hdone := herase .done
  have hledger : ledger (State.init db) (as ++ [.finish i]) = ledger (State.init db) as :=
    (ledger_concat hrun _).trans (List.append_nil _)
  have harrived : arrivals (as ++ [.finish i]) = arrivals as := arrivals_concat as _ nofun
  refine ⟨xs.eraseIdx i, ?_, ?_, ?_, ?_, ?_⟩
  · rw [← List.eraseIdx_map, hbooks.tasks, htasks]
  · exact fun x hx' => hbooks.fits x (List.mem_of_mem_eraseIdx hx')
  · rw [hledger, harrived]
    have hold := hbooks.asked
    omega
  · intro hwrites
    rw [hledger, hanswered, answerCount_append]
    have hold := hbooks.done hwrites
    -- an answer with success is that of a request at `done`
    have hreply : (if task.label = r ∧ reply.isOk = true then 1 else 0) ≤
        if task.label = r ∧ g = .done then 1 else 0 := by
      split_ifs with hsuccess hsame
      · omega
      · obtain ⟨rfl, hsuccess⟩ := hsuccess
        exact absurd ⟨rfl, hok hwrites hsuccess⟩ hsame
      · omega
      · omega
    omega
  · intro hanswers
    obtain ⟨hnone, hold⟩ := hbooks.refused fun a ha => hanswers a (List.mem_append_left _ ha)
    refine ⟨fun x hx' => hnone x (List.mem_of_mem_eraseIdx hx'), ?_⟩
    rw [hledger, harrived, hanswered, answerCount_append]
    -- a status is the answer of a request at `pending`
    have hreply : (if task.label = r ∧ isStatus reply = true then 1 else 0) ≤
        if task.label = r ∧ g = .pending then 1 else 0 := by
      split_ifs with hrefused hsame
      · omega
      · obtain ⟨rfl, hrefused⟩ := hrefused
        refine absurd ⟨rfl, ?_⟩ hsame
        have hlost := hnone _ (List.mem_of_getElem? hx)
        have hnotdone := hstatus hrefused
        cases g with
        | pending => rfl
        | lost => exact absurd rfl hlost
        | done => exact absurd rfl hnotdone
        | void => exact absurd rfl hfit.1
      · omega
      · omega
    omega

/-- The clock changes no book. -/
theorem books_tick (hrun : Runs.exec step (State.init db) as = some s) (hbooks : Books r db as s xs)
    {ms : Nat} (h : step s (.tick ms) = some s') : ∃ xs', Books r db (as ++ [.tick ms]) s' xs' := by
  cases h
  have hledger : ledger (State.init db) (as ++ [.tick ms]) = ledger (State.init db) as :=
    (ledger_concat hrun _).trans (List.append_nil _)
  have harrived : arrivals (as ++ [.tick ms]) = arrivals as := arrivals_concat as _ nofun
  refine ⟨xs, hbooks.tasks, hbooks.fits, ?_, ?_, ?_⟩
  · rw [hledger, harrived]
    exact hbooks.asked
  · rw [hledger]
    exact hbooks.done
  · intro hanswers
    rw [hledger, harrived]
    exact hbooks.refused fun a ha => hanswers a (List.mem_append_left _ ha)

/-- **Books are kept.** -/
theorem books_exec (r : Request) (hrun : Runs.exec step (State.init db) as = some s) :
    ∃ xs, Books r db as s xs := by
  refine Runs.exec_history (I := fun s as => ∃ xs, Books r db as s xs) ?_ ?_ hrun
  · intro m a m' as hm ⟨xs, hbooks⟩ hstep
    cases a with
    | request r' => exact books_request hm hbooks hstep
    | call i outcome => exact books_call hm hbooks hstep
    | finish i => exact books_finish hm hbooks hstep
    | tick ms => exact books_tick hm hbooks hstep
  · refine ⟨[], rfl, fun _ hx => absurd hx List.not_mem_nil, Nat.le_refl 0, fun _ => Nat.le_refl 0, ?_⟩
    exact fun _ => ⟨fun _ hx => absurd hx List.not_mem_nil, Nat.le_refl 0⟩

/-- What has been done has been asked for. -/
theorem dones_le (r : Request) (hrun : Runs.exec step (State.init db) as = some s) :
    dones r (ledger (State.init db) as) ≤ (arrivals as).count r := by
  obtain ⟨xs, hbooks⟩ := books_exec r hrun
  have hasked := hbooks.asked
  omega

/-- What the books say of the requests that have been answered. -/
theorem accounted (r : Request) (hrun : Runs.exec step (State.init db) as = some s)
    (hwrites : r.writes = true) :
    answerCount r (·.isOk) s.shared.answered ≤ dones r (ledger (State.init db) as) ∧
      dones r (ledger (State.init db) as) ≤ (arrivals as).count r ∧
      ((∀ a ∈ as, a.answers) →
        dones r (ledger (State.init db) as) + answerCount r isStatus s.shared.answered ≤
          (arrivals as).count r) := by
  obtain ⟨xs, hbooks⟩ := books_exec r hrun
  have hdone := hbooks.done hwrites
  refine ⟨by omega, dones_le r hrun, fun hanswers => ?_⟩
  have hrefused := (hbooks.refused hanswers).2
  omega

end Books

section Runs

open scoped Hex

variable {db : Db} {as : List Action} {s : State}

/-- **Refinement.** Every run of the requests does to the network what its deeds do in their order:
each can be done where it is done, and it is what a request that has arrived asks for. -/
theorem network_refined [Bson] (hrun : Runs.exec step (State.init db) as = some s) :
    Runs.exec Network.perform db.network (ledger (State.init db) as) = some s.shared.db.network ∧
      ∀ x ∈ ledger (State.init db) as, x.Asked ∧ x.request ∈ arrivals as := by
  obtain ⟨hexec, hasked⟩ := network_exec hrun
  refine ⟨hexec, fun x hx => ⟨hasked x hx, ?_⟩⟩
  have hone : 0 < dones x.request (ledger (State.init db) as) :=
    List.countP_pos_iff.mpr ⟨x, hx, decide_eq_true rfl⟩
  have hcount := dones_le x.request hrun
  exact List.count_pos_iff.mp (by omega)

/-- Bob registers while the users are listed. -/
theorem network_refined_bob : ∃ s, Runs.exec step (State.init Db.empty) createWhileListing = some s ∧
    (ledger (State.init Db.empty) createWhileListing).map (·.request) = [.create_user newUser] ∧
    Runs.exec Network.perform Db.empty.network (ledger (State.init Db.empty) createWhileListing) =
      some s.shared.db.network := by
  have hrun : (Runs.exec step (State.init Db.empty) createWhileListing).isSome = true := by
    decide +kernel
  obtain ⟨s, hs⟩ := Option.isSome_iff_exists.mp hrun
  exact ⟨s, hs, by decide +kernel, (network_refined hs).1⟩

/-- **Accounting.** Every deed of a run is done for a request that has arrived, none twice; behind
every answer with success there is a deed; and where no call fails, there is none behind a status. -/
theorem deeds_accounted [Bson] {r : Request} (hrun : Runs.exec step (State.init db) as = some s)
    (hwrites : r.writes = true) :
    answerCount r (·.isOk) s.shared.answered ≤ dones r (ledger (State.init db) as) ∧
      dones r (ledger (State.init db) as) ≤ (arrivals as).count r ∧
      ((∀ a ∈ as, a.answers) →
        dones r (ledger (State.init db) as) + answerCount r isStatus s.shared.answered ≤
          (arrivals as).count r) := accounted r hrun hwrites

theorem deeds_accounted_bob : ∃ s, Runs.exec step (State.init Db.empty) createWhileListing = some s ∧
    answerCount (.create_user newUser) (·.isOk) s.shared.answered = 1 ∧
    dones (.create_user newUser) (ledger (State.init Db.empty) createWhileListing) = 1 := by
  have hresult : (Runs.exec step (State.init Db.empty) createWhileListing).map
      (fun s => answerCount (.create_user newUser) (·.isOk) s.shared.answered) = some 1 := by
    decide +kernel
  obtain ⟨s, hrun, hs⟩ := Option.map_eq_some_iff.mp hresult
  obtain ⟨hok, harrived, -⟩ := deeds_accounted (r := .create_user newUser) hrun rfl
  have hcount : (arrivals createWhileListing).count (.create_user newUser) = 1 := by decide +kernel
  exact ⟨s, hrun, hs, by omega⟩

end Runs

end SocialNetwork.MongoApi

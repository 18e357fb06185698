import SocialNetwork.MongoApi.ReferenceTheorems
import SocialNetwork.MongoApi.Trail

/-!
# Reading back

A request that has inserted or updated a document invalidates the cache and then reads the document
back. `read_back_iff` says when it finds it: whenever no other request has deleted it by then, which
the endpoints of users and of messages do not exclude.
-/

namespace SocialNetwork.MongoApi

open DocStore

/-! ## Requests that have yet to read back -/

/-- What is left to do is to invalidate, and then to read the document with the id. -/
inductive ReadsBack (coll : Coll) (id : ObjectId) : Api Reply → Prop
  | now (k : Except PyError (Option Doc) → Api Reply) :
    ReadsBack coll id (.call (.find_one coll (.field "_id" (.oid id))) k)
  | later (prefix_ : String) (k : Except PyError Unit → Api Reply) (r : Except PyError Unit)
    (h : ReadsBack coll id (k r)) : ReadsBack coll id (.call (.delete_scanned prefix_) k)

/-- The request has written the document and has yet to read it back. -/
def Awaits (coll : Coll) (id : ObjectId) (task : Task) : Prop :=
  task.label.written = some coll ∧ ReadsBack coll id task.prog

/-- Every document that has yet to be read back is there. -/
def FindsBack (s : State) : Prop :=
  ∀ coll id, ∀ task ∈ s.tasks, Awaits coll id task →
    ∃ d, findOne (.field "_id" (.oid id)) (s.shared.db.docs coll) = some d

/-- The document that the step reads back, if it is a `find_one` in the collection that its request
has written. -/
def readBack? (s : State) : Action → Option (Option Doc)
  | .call i _ => do
    let task ← s.tasks[i]?
    match task.prog.head? with
    | some (.find_one coll filter) =>
      if task.label.written = some coll then some (findOne filter (s.shared.db.docs coll)) else none
    | _ => none
  | _ => none

/-- A step that reads back does not read `None`. -/
def ReadsDocument (s : State) (a : Action) : Prop := readBack? s a ≠ some none

/-- The step deletes the document with the id. -/
def Deletes (coll : Coll) (id : ObjectId) (s : State) : Action → Prop
  | .call i outcome => ∃ task ω filter d, s.tasks[i]? = some task ∧
      task.prog.head? = some (.delete_one coll filter) ∧ outcome.choice? = some ω ∧
      findOne filter (s.shared.db.docs coll) = some d ∧ d.get "_id" = some (.oid id)
  | _ => False

/-- The step deletes no document that a request in flight has yet to read back. -/
def Undisturbed (s : State) (a : Action) : Prop :=
  ∀ coll id, Deletes coll id s a → ∀ task ∈ s.tasks, ¬ Awaits coll id task

/-- The collection and the id of the document that the step deletes. -/
def deleted? (s : State) : Action → Option (Coll × Value)
  | .call i outcome => do
    let task ← s.tasks[i]?
    let _ ← outcome.choice?
    match task.prog.head? with
    | some (.delete_one coll filter) => do
      let d ← findOne filter (s.shared.db.docs coll)
      let id ← d.get "_id"
      pure (coll, id)
    | _ => none
  | _ => none

section Awaits

variable {coll : Coll} {id : ObjectId} {g : Trail}

theorem ReadsBack.head_ne {p : Api Reply} (h : ReadsBack coll id p) (coll' : Coll) (filter : Filter) :
    p.head? ≠ some (.delete_one coll' filter) := by
  cases h with
  | now k => exact nofun
  | later prefix_ k r h => exact nofun

theorem ReadsBack.of_head {p : Api Reply}
    (h : p.head? = some (.find_one coll (.field "_id" (.oid id)))) : ReadsBack coll id p := by
  cases p with
  | ret a => cases h
  | raise e => cases h
  | call c k =>
    cases h
    exact .now k

/-- What is read back if no call fails. -/
def awaited : Api Reply → Option (Coll × ObjectId)
  | .call (.find_one coll (.all [.eq "_id" (.oid id)])) _ => some (coll, id)
  | .call (.delete_scanned _) k => awaited (k (.ok ()))
  | _ => none

theorem ReadsBack.of_awaited {p : Api Reply} (h : awaited p = some (coll, id)) :
    ReadsBack coll id p := by
  induction p with
  | ret a => cases h
  | raise e => cases h
  | call c k ih =>
    unfold awaited at h
    split at h
    · next hp =>
      cases hp
      cases h
      exact .now _
    · next hp =>
      cases hp
      exact .later _ _ _ (ih _ h)
    · cases h

/-- The next call is one of a request that reads back. -/
def mayReadBack : Api Reply → Bool
  | .call (.find_one _ _) _ | .call (.delete_scanned _) _ => true
  | _ => false

theorem ReadsBack.may {p : Api Reply} (h : ReadsBack coll id p) : mayReadBack p = true := by
  cases h <;> rfl

/-- Only what has been written is read back. -/
theorem ReadsBack.wrote [Bson] {l : Request} {Q : Except PyError Reply → Trail → Prop} {p : Api Reply}
    (h : ReadsBack coll id p) (hl : l.written = some coll) (hobeys : p.Obeys (trail l) Q g) :
    g.wrote = some (coll, id) := by
  induction h with
  | now k =>
    obtain ⟨id', hfilter, hwrote⟩ : ∃ id', Filter.field "_id" (.oid id) = .field "_id" (.oid id') ∧
      g.wrote = some (coll, id') := hobeys.1 hl
    cases hfilter
    exact hwrote
  | later prefix_ k r h ih => exact ih (hobeys.2 r)

/-- A call after which a document is to be read back has written it, or it was to be before. -/
theorem mem_ids_of_wrote [Bson] {db db' : Db} {c : Call} {x : Except PyError c.Answer}
    (h : Effect db c x db') (hwrote : (g.next c x).wrote = some (coll, id)) {l : Request}
    (hallows : g.allows l c) :
    some (.oid id) ∈ db'.ids coll ∨ ∃ prefix_, c = .delete_scanned prefix_ := by
  cases c with
  | delete_scanned prefix_ => exact .inr ⟨prefix_, rfl⟩
  | insert_one coll' doc =>
    cases x with
    | error e => cases hwrote
    | ok a =>
      cases hwrote
      cases h with
      | same hx =>
        obtain ⟨e, he⟩ := hx rfl
        cases he
      | insert hnew hinsert hx =>
        cases hx _ rfl
        exact .inl ((Db.mem_ids_insert_one hinsert).mpr (.inr ⟨rfl, rfl⟩))
  | update_one coll' filter update =>
    cases x with
    | error e => cases hwrote
    | ok a =>
      obtain ⟨id', rfl, -⟩ := hallows
      cases h with
      | same hx =>
        obtain ⟨e, he⟩ := hx rfl
        cases he
      | update hupdate hx =>
        cases hx _ rfl
        change (g.matched _ (some (coll', id'))).wrote = _ at hwrote
        unfold Trail.matched at hwrote
        obtain ⟨⟨l₁, d, l₂, d', hbefore, hholds, -, hn, -⟩ | ⟨-, hn, -⟩, -, -⟩ :=
          Db.docs_update_one hupdate
        · rw [if_neg (by omega)] at hwrote
          cases hwrote
          -- the document that has matched has the id, and keeps it
          have hd : d ∈ db.docs coll := by
            rw [hbefore]
            exact Lists.mem_middle.mpr (.inl rfl)
          rw [Db.ids_update_one hupdate]
          exact .inl (List.mem_map.mpr ⟨d, hd, Validated.id_of_holds (c := db.coll coll) hd hholds⟩)
        · rw [if_pos hn] at hwrote
          cases hwrote
  | delete_one coll' filter =>
    cases x with
    | error e => cases hwrote
    | ok a =>
      change (g.matched a none).wrote = _ at hwrote
      unfold Trail.matched at hwrote
      split_ifs at hwrote
      cases hwrote
  | _ => cases x <;> cases hwrote

end Awaits

/-! ## Deletes -/

section Deletes

variable {l : Request} {aux : Option KeyValue.Scan} {outcome : Outcome} {w w' : World}

/-- A delete takes effect or does nothing. -/
theorem exec_delete {coll : Coll} {filter : Filter} {y : Option KeyValue.Scan ⊕ Except PyError Nat}
    (h : exec l (.delete_one coll filter) aux outcome w = some (w', y)) :
    w'.db = if outcome.choice?.isSome then (w.db.delete_one coll filter).2 else w.db := by
  rcases exec_atomic rfl h with ⟨ω, x, rfl, hx, -⟩ | ⟨ω, x, rfl, hx, -⟩ | ⟨⟨ω, rfl⟩, rfl, -⟩
  · cases hx
    rfl
  · cases hx
    rfl
  · rfl

variable [Bson] {s s' : State} {a : Action} {coll : Coll} {id : ObjectId}

/-- A document that is there stays, unless the step deletes it. -/
theorem mem_ids_step_iff (h : step s a = some s') (hid : some (.oid id) ∈ s.shared.db.ids coll) :
    some (.oid id) ∈ s'.shared.db.ids coll ↔ ¬ Deletes coll id s a := by
  cases a with
  | request r =>
    cases h
    exact iff_of_true hid nofun
  | finish i =>
    obtain ⟨l₁, task, l₂, r, -, -, rfl⟩ := finish_eq_some h
    exact iff_of_true hid nofun
  | tick ms =>
    cases h
    exact iff_of_true hid nofun
  | call i outcome =>
    obtain ⟨l₁, task, l₂, task', c, k, y, hi, -, -, hprog, hexec, -⟩ := call_eq_some h
    have hhead : task.prog.head? = some c := by
      rw [hprog]
      rfl
    by_cases hdelete : ∃ coll' filter, c = .delete_one coll' filter
    · obtain ⟨coll', filter, rfl⟩ := hdelete
      rw [exec_delete hexec]
      cases hω : outcome.choice? with
      | none =>
        refine iff_of_true hid ?_
        rintro ⟨t, ω, filter', d, -, -, hsome, -⟩
        rw [hω] at hsome
        cases hsome
      | some ω =>
        rw [Option.isSome_some, if_pos rfl, Db.mem_ids_delete_one]
        constructor
        · rintro ⟨-, hne⟩ ⟨t, ω', filter', d, ht, hc, -, hfound, hd⟩
          rw [← Option.some.inj (hi.symm.trans ht), hhead] at hc
          cases hc
          exact hne rfl d hfound hd
        · intro hnot
          refine ⟨hid, ?_⟩
          rintro rfl d hfound hd
          exact hnot ⟨task, ω, filter, d, hi, hhead, hω, hfound, hd⟩
    · -- no other call deletes
      have hnot : ¬ Deletes coll id s (.call i outcome) := by
        rintro ⟨t, ω, filter, d, ht, hc, -⟩
        rw [← Option.some.inj (hi.symm.trans ht), hhead] at hc
        exact hdelete ⟨coll, filter, Option.some.inj hc⟩
      refine iff_of_true ?_ hnot
      rcases exec_effect hexec with ⟨-, hdb⟩ | ⟨x, -, heffect⟩
      · rw [hdb]
        exact hid
      · generalize s'.shared.db = db' at heffect
        cases heffect with
        | same => exact hid
        | insert hnew hinsert => exact (Db.mem_ids_insert_one hinsert).mpr (.inl hid)
        | update hupdate =>
          rw [Db.ids_update_one hupdate]
          exact hid
        | @delete coll' filter => exact absurd ⟨coll', filter, rfl⟩ hdelete

/-- A request that deletes is not one that reads back. -/
theorem awaits_stays (h : step s a = some s') {id' : ObjectId} {coll' : Coll}
    (hdeletes : Deletes coll' id' s a) {task : Task} (htask : task ∈ s.tasks)
    (hawaits : Awaits coll id task) : task ∈ s'.tasks := by
  cases a with
  | call i outcome =>
    obtain ⟨l₁, t, l₂, t', c, k, y, hi, htasks, htasks', -, -, -⟩ := call_eq_some h
    obtain ⟨t₁, ω, filter, d, ht₁, hhead, -⟩ := hdeletes
    rw [htasks] at htask
    rw [htasks']
    rcases Lists.mem_middle.mp htask with rfl | hother
    · rw [← Option.some.inj (hi.symm.trans ht₁)] at hhead
      exact absurd hhead (hawaits.2.head_ne coll' filter)
    · exact Lists.mem_middle.mpr (.inr hother)
  | request r => cases hdeletes
  | finish i => cases hdeletes
  | tick ms => cases hdeletes

/-- A document that is to be read back has just been written, or it was to be before. -/
theorem awaits_step (htasks : ∀ task ∈ s.tasks, KeepsTrail task) (h : step s a = some s')
    {task' : Task} (htask' : task' ∈ s'.tasks) (hawaits : Awaits coll id task') :
    some (.oid id) ∈ s'.shared.db.ids coll ∨ ∃ task ∈ s.tasks, Awaits coll id task := by
  cases a with
  | request r =>
    cases h
    rcases List.mem_append.mp htask' with htask' | htask'
    · exact .inr ⟨task', htask', hawaits⟩
    · rw [List.mem_singleton.mp htask'] at hawaits
      -- a request that arrives has written nothing
      have hwrote := hawaits.2.wrote hawaits.1 (handle_trail r)
      cases hwrote
  | finish i =>
    obtain ⟨l₁, task, l₂, r, hs, -, rfl⟩ := finish_eq_some h
    refine .inr ⟨task', ?_, hawaits⟩
    rw [hs]
    exact Lists.mem_middle.mpr (.inr htask')
  | tick ms =>
    cases h
    exact .inr ⟨task', htask', hawaits⟩
  | call i outcome =>
    obtain ⟨l₁, task, l₂, t', c, k, y, hi, hs, hs', hprog, hexec, hy⟩ := call_eq_some h
    have htask : task ∈ s.tasks := List.mem_of_getElem? hi
    rw [hs'] at htask'
    rcases Lists.mem_middle.mp htask' with rfl | hother
    · rcases hy with ⟨sc, -, rfl⟩ | ⟨r, rfl, rfl⟩
      · exact .inr ⟨task, htask, hawaits⟩
      · obtain ⟨g, hg⟩ := htasks task htask
        obtain ⟨hallows, hobeys, -⟩ := hg.call hprog hexec
        have hwrote := hawaits.2.wrote hawaits.1 hobeys
        rcases exec_effect hexec with ⟨⟨sc, hsc⟩, -⟩ | ⟨x, hx, heffect⟩
        · cases hsc
        · cases hx
          rcases mem_ids_of_wrote heffect hwrote hallows with hid | ⟨prefix_, rfl⟩
          · exact .inl hid
          · refine .inr ⟨task, htask, hawaits.1, ?_⟩
            rw [hprog]
            exact .later prefix_ k r hawaits.2
    · refine .inr ⟨task', ?_, hawaits⟩
      rw [hs]
      exact Lists.mem_middle.mpr (.inr hother)

/-- **Steps.** -/
theorem findsBack_step_iff (htasks : ∀ task ∈ s.tasks, KeepsTrail task) (hs : FindsBack s)
    (h : step s a = some s') : FindsBack s' ↔ Undisturbed s a := by
  constructor
  · intro hs' coll id hdeletes task htask hawaits
    have hid := Db.findOne_iff.mp (hs coll id task htask hawaits)
    have hid' := Db.findOne_iff.mp (hs' coll id task (awaits_stays h hdeletes htask hawaits) hawaits)
    exact (mem_ids_step_iff h hid).mp hid' hdeletes
  · intro hundisturbed coll id task' htask' hawaits
    apply Db.findOne_iff.mpr
    rcases awaits_step htasks h htask' hawaits with hid | ⟨task, htask, hbefore⟩
    · exact hid
    · have hid := Db.findOne_iff.mp (hs coll id task htask hbefore)
      exact (mem_ids_step_iff h hid).mpr fun hdeletes =>
        hundisturbed coll id hdeletes task htask hbefore

/-- What is read back is what a request awaits. -/
theorem readsDocument_of_findsBack (htasks : ∀ task ∈ s.tasks, KeepsTrail task) (hs : FindsBack s) :
    ReadsDocument s a := by
  cases a with
  | call i outcome =>
    intro hread
    obtain ⟨task, hi, hread⟩ := Option.bind_eq_some_iff.mp hread
    have htask : task ∈ s.tasks := List.mem_of_getElem? hi
    split at hread
    · next coll filter hhead =>
      split_ifs at hread with hwritten
      obtain ⟨g, hobeys, -⟩ := htasks task htask
      have hallows : g.allows task.label (.find_one coll filter) := hobeys.head_ok hhead
      obtain ⟨id, rfl, -⟩ := hallows hwritten
      obtain ⟨d, hd⟩ := hs coll id task htask ⟨hwritten, .of_head hhead⟩
      rw [hd] at hread
      cases hread
    · cases hread
  | request r => exact nofun
  | finish i => exact nofun
  | tick ms => exact nofun

theorem not_deletes_posts (htasks : ∀ task ∈ s.tasks, KeepsTrail task) : ¬ Deletes .posts id s a := by
  cases a with
  | call i outcome =>
    rintro ⟨task, ω, filter, d, hi, hhead, -⟩
    obtain ⟨g, hobeys, -⟩ := htasks task (List.mem_of_getElem? hi)
    have hallows : g.allows task.label (.delete_one .posts filter) := hobeys.head_ok hhead
    exact hallows rfl
  | request r => exact nofun
  | finish i => exact nofun
  | tick ms => exact nofun

/-- Every request that may have yet to read back awaits another document than the one that the step
deletes. -/
def Apart (s : State) (a : Action) : Prop :=
  ∀ x ∈ deleted? s a, ∀ task ∈ s.tasks, mayReadBack task.prog = false ∨
    ∃ y ∈ awaited task.prog, y.1 = x.1 ∧ .oid y.2 ≠ x.2

instance (s : State) (a : Action) : Decidable (Apart s a) :=
  inferInstanceAs (Decidable (∀ x ∈ deleted? s a, ∀ task ∈ s.tasks, _ ∨ ∃ y ∈ awaited task.prog, _ ∧ _))

/-- A request that has yet to read back awaits nothing but what it would read if no call failed. -/
theorem Awaits.unique {task : Task} (htask : KeepsTrail task) (hawaits : Awaits coll id task)
    {id' : ObjectId} (h : awaited task.prog = some (coll, id')) : id = id' := by
  obtain ⟨g, hobeys, -⟩ := htask
  have hwrote := hawaits.2.wrote hawaits.1 hobeys
  have hwrote' := (ReadsBack.of_awaited h).wrote hawaits.1 hobeys
  exact (Prod.mk.inj (Option.some.inj (hwrote.symm.trans hwrote'))).2

theorem undisturbed_of_apart (htasks : ∀ task ∈ s.tasks, KeepsTrail task) (h : Apart s a) :
    Undisturbed s a := by
  intro coll id hdeletes task htask hawaits
  cases a with
  | call i outcome =>
    obtain ⟨t, ω, filter, d, ht, hhead, hω, hfound, hid⟩ := hdeletes
    have hdeleted : deleted? s (.call i outcome) = some (coll, .oid id) := by
      simp only [deleted?, ht, hω, hhead, hfound, hid, Option.bind_eq_bind, Option.bind_some,
        Option.pure_def]
    rcases h (coll, .oid id) hdeleted task htask with hidle | ⟨⟨coll', id'⟩, hawaited, rfl, hne⟩
    · rw [hawaits.2.may] at hidle
      cases hidle
    · exact hne (congrArg Value.oid (hawaits.unique (htasks task htask) hawaited).symm)
  | request r => cases hdeletes
  | finish i => cases hdeletes
  | tick ms => cases hdeletes

end Deletes

/-! ## Runs -/

/-- No endpoint deletes posts, so they are always read back. -/
theorem posts_found [Bson] {db : Db} {as : List Action} {s : State}
    (hrun : Runs.exec step (State.init db) as = some s) {id : ObjectId} {task : Task}
    (htask : task ∈ s.tasks) (hawaits : Awaits .posts id task) :
    ∃ d, findOne (.field "_id" (.oid id)) (s.shared.db.docs .posts) = some d := by
  refine Db.findOne_iff.mpr ((Runs.exec_preserves (I := fun s : State =>
    (∀ task ∈ s.tasks, KeepsTrail task) ∧ ∀ id, ∀ task ∈ s.tasks, Awaits .posts id task →
      some (.oid id) ∈ s.shared.db.ids .posts) ?_ ?_ hrun).2 id task htask hawaits)
  · intro s a s' ⟨htasks, hs⟩ hstep
    refine ⟨keepsTrail_step htasks hstep, fun id task' htask' hawaits => ?_⟩
    rcases awaits_step htasks hstep htask' hawaits with hid | ⟨task, htask, hbefore⟩
    · exact hid
    · refine (mem_ids_step_iff hstep (hs id task htask hbefore)).mpr ?_
      exact not_deletes_posts htasks
  · exact ⟨fun _ htask => absurd htask List.not_mem_nil, fun _ _ htask => absurd htask List.not_mem_nil⟩

open scoped Hex

/-- The call is answered; a SCAN finds no keys. -/
def answers : Outcome := .ok ⟨.ofNat 0, [], [], true⟩

/-- Carol is registered, and deleted while Bob's registration is in flight. -/
def deleteCarol : List Action :=
  addBob ++ [
    .request (.create_user ⟨"carol", "carol@example.com", "secret", "Carol", "Davis", some 25, []⟩),
    answerWith 1 1, answerWith 1 1, .call 1 answers, .call 1 answers, .call 1 answers, .finish 1,
    .call 0 answers, .request (.delete_user (ObjectId.ofNat 1).hex), answerWith 1 1,
    .call 0 answers, .call 0 answers, .finish 0]

def renameBob : Request := .update_user "000000000000000000000000" ⟨some "Rob", none, none, none⟩

/-- Bob is added and renamed, and deleted before he is read back. -/
def renameAndDelete : List Action :=
  addBob ++ [.call 0 answers, .call 0 answers, .call 0 answers, .finish 0, .request renameBob,
    .call 0 answers, .request (.delete_user "000000000000000000000000"), .call 1 answers] ++
    List.replicate 8 (.call 0 answers)

end SocialNetwork.MongoApi

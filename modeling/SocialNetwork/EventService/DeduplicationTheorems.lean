import SocialNetwork.EventService.ConsumersTheorems
import SocialNetwork.EventService.Producer
import Mathlib.Data.List.Dedup
import Mathlib.Data.List.Nodup
import Mathlib.Data.List.Perm.Subperm

/-!
# Deduplication

An event is recorded in `processed_events` and then projected. `Once` counts, for every event
id, the recorded documents, the executed updates, and the callbacks that are about to add one;
it is kept by every step that meets `NoRace`: no `find_one` is answered while another callback
is between its own `find_one` and its `insert_one` for the same event. With one consumer there
is never another callback, so the condition is always met.
-/

namespace SocialNetwork.EventService

open DocStore

/-! ## Counting -/

def Call.isFind : Call → Bool
  | find_one .. => true
  | _ => false

def Call.isInsert : Call → Bool
  | insert_one .. => true
  | _ => false

def Call.isUpdate : Call → Bool
  | update_one .. => true
  | _ => false

/-- A callback for the event is about to make a call of this kind. -/
def About (kind : Call → Bool) (id : Key) (t : Task) : Bool :=
  decide (t.label.body.event_id? = some id) && t.prog.head?.any kind

/-- How many callbacks for the event are about to make a call of this kind. -/
def about (kind : Call → Bool) (id : Key) (ts : List Task) : Nat := ts.countP (About kind id)

/-- How often the `update_one` of the event was executed. -/
def executedFor (executed : List Executed) (id : Key) : Nat :=
  executed.countP fun x => decide (x.body.event_id? = some id)

theorem about_split (kind : Call → Bool) (id : Key) (l₁ l₂ : List Task) (t : Task) :
    about kind id (l₁ ++ t :: l₂) =
      about kind id l₁ + about kind id l₂ + (About kind id t).toNat := by
  rw [about, List.countP_append, List.countP_cons, about, about]
  cases About kind id t with
  | false => rfl
  | true =>
    show _ + (_ + 1) = _ + _ + 1
    omega

theorem about_append (kind : Call → Bool) (id : Key) (l₁ l₂ : List Task) :
    about kind id (l₁ ++ l₂) = about kind id l₁ + about kind id l₂ := List.countP_append

theorem recorded_append (db : Db) (d : Doc) {id : Key} (hd : d.get "event_id" = some id.val)
    (id' : Key) :
    ({ db with processed_events := db.processed_events ++ [d] } : Db).recorded id' =
      db.recorded id' ++ if id = id' then [d] else [] := by
  rw [Db.recorded, find, List.filter_append, Db.recorded, find]
  congr 1
  have hh : (Filter.field "event_id" id'.val).holds d = decide (id = id') := holds_key hd id'
  rw [List.filter_cons, List.filter_nil, hh]
  by_cases h : id = id'
  · rw [if_pos h, decide_eq_true h, if_pos rfl]
  · rw [if_neg h, decide_eq_false h, if_neg Bool.false_ne_true]

theorem executedFor_append (xs : List Executed) (x : Executed) (id : Key) :
    executedFor (xs ++ [x]) id =
      executedFor xs id + (decide (x.body.event_id? = some id)).toNat := by
  rw [executedFor, List.countP_append, List.countP_singleton, executedFor]
  cases decide (x.body.event_id? = some id) <;> rfl

/-! ## The invariant -/

/-- Recorded documents and executed updates of an event, with those about to be added. -/
structure Once (s : State) : Prop where
  recorded : ∀ id, (s.shared.db.recorded id).length + about Call.isInsert id s.tasks ≤ 1
  executed : ∀ id, executedFor s.shared.executed id + about Call.isUpdate id s.tasks ≤
    (s.shared.db.recorded id).length

theorem once_init : Once State.init := by
  refine ⟨fun id => ?_, fun id => ?_⟩
  · show 0 + 0 ≤ 1
    omega
  · show 0 + 0 ≤ 0
    omega

/-- A `find_one` is answered while no other callback for the same event is about to insert. -/
def NoRace (s : State) : Action → Prop
  | .call i .ok => ∀ t ∈ s.tasks[i]?, t.prog.head?.any Call.isFind = true →
      ∀ u ∈ s.tasks, u.label.body.event_id? = t.label.body.event_id? →
        u.prog.head?.any Call.isInsert = false
  | _ => True

instance (s : State) : (a : Action) → Decidable (NoRace s a)
  | .call i .ok =>
    inferInstanceAs (Decidable (∀ t ∈ s.tasks[i]?, t.prog.head?.any Call.isFind = true →
      ∀ u ∈ s.tasks, u.label.body.event_id? = t.label.body.event_id? →
        u.prog.head?.any Call.isInsert = false))
  | .call _ (.raises _) | .publish _ | .deliver _ _ | .finish _ | .crash _ | .drop _ =>
    isTrue trivial

/-- The phase of a callback that is about to insert, and of one that is about to update. -/
theorem phase_of_about {b : Body} {p : Py Unit} {g : Phase}
    (hp : p.Obeys (monitor b) Ended g) :
    (p.head?.any Call.isInsert = true → g = .absent) ∧
      (p.head?.any Call.isUpdate = true → g = .recorded) := by
  refine ⟨fun h => ?_, fun h => ?_⟩
  · rw [Option.any_eq_true] at h
    obtain ⟨c, hc, hi⟩ := h
    have hok := hp.head_ok hc
    cases c with
    | insert_one coll doc => exact hok.1
    | _ => cases hi
  · rw [Option.any_eq_true] at h
    obtain ⟨c, hc, hu⟩ := h
    have hok := hp.head_ok hc
    cases c with
    | update_one coll filter update upsert => exact hok.1
    | _ => cases hu

/-- A call of a callback for another event adds nothing to the count of an event. -/
theorem Effect.count_other {l : Delivery} {w w' : World} {c : Call} {ω : Outcome} {g g' : Phase}
    (h : Effect l w c ω g w' g') {id : Key} (hid : l.body.event_id? ≠ some id) :
    w'.db.recorded id = w.db.recorded id ∧
      executedFor w'.executed id = executedFor w.executed id := by
  cases h with
  | @record doc _ id' hω hid' hdoc =>
    have hne : id' ≠ id := fun he => hid (he ▸ hid')
    rw [recorded_append _ _ hdoc, if_neg hne, List.append_nil]
    exact ⟨rfl, rfl⟩
  | @project _ _ _ _ _ _ k db hω _ _ hdb =>
    have hp := k.processed_events_call w.db
    rw [hdb] at hp
    rw [executedFor_append, decide_eq_false hid, Db.recorded, hp]
    exact ⟨rfl, rfl⟩
  | miscarry _ _ =>
    rw [executedFor_append, decide_eq_false hid]
    exact ⟨rfl, rfl⟩
  | _ => exact ⟨rfl, rfl⟩

/-- What a call of a callback for an event adds to its count. A `find_one` that misses is the
only call after which there is more to record than before. -/
theorem Effect.count {l : Delivery} {w w' : World} {c : Call} {ω : Outcome} {g g' : Phase}
    (h : Effect l w c ω g w' g') {id : Key} (hid : l.body.event_id? = some id) :
    ((w'.db.recorded id).length + (decide (g' = .absent)).toNat ≤
          (w.db.recorded id).length + c.isInsert.toNat ∨
        (c.isFind = true ∧ ω = .ok ∧ w' = w ∧ w.db.recorded id = [])) ∧
      executedFor w'.executed id + (decide (g' = .recorded)).toNat +
          (w.db.recorded id).length ≤
        executedFor w.executed id + c.isUpdate.toNat + (w'.db.recorded id).length := by
  cases h with
  -- the miss is the one case in which a record is promised and not made
  | miss hid' hr =>
    have he := Option.some.inj (hid'.symm.trans hid)
    subst he
    exact ⟨.inr ⟨rfl, rfl, rfl, hr⟩, Nat.le_refl _⟩
  | @record doc _ id' hω hid' hdoc =>
    have he := Option.some.inj (hid'.symm.trans hid)
    rw [recorded_append _ _ hdoc, if_pos he, List.length_append, List.length_singleton]
    rcases hω with rfl | rfl
    · refine ⟨.inl (Nat.le_refl _), ?_⟩
      show executedFor w.executed id + 1 + _ ≤ executedFor w.executed id + 0 + (_ + 1)
      omega
    · refine ⟨.inl (Nat.le_refl _), ?_⟩
      show executedFor w.executed id + 0 + _ ≤ executedFor w.executed id + 0 + (_ + 1)
      omega
  -- the update uses up the promise that the record had made
  | @project _ _ _ _ _ _ k db hω _ _ hdb =>
    have hp := k.processed_events_call w.db
    rw [hdb] at hp
    rw [executedFor_append, decide_eq_true hid, Db.recorded, hp]
    rcases hω with rfl | rfl
    · exact ⟨.inl (Nat.le_refl _), Nat.le_refl _⟩
    · exact ⟨.inl (Nat.le_refl _), Nat.le_refl _⟩
  | miscarry _ _ =>
    rw [executedFor_append, decide_eq_true hid]
    exact ⟨.inl (Nat.le_refl _), Nat.le_refl _⟩
  | hit _ _ => exact ⟨.inl (Nat.le_refl _), Nat.le_refl _⟩
  | unread => exact ⟨.inl (Nat.le_refl _), Nat.le_refl _⟩
  | ack hω hg =>
    rcases hω with rfl | rfl <;> exact ⟨.inl (Nat.le_refl _), Nat.le_refl _⟩
  | nack hω =>
    rcases hω with rfl | rfl <;> exact ⟨.inl (Nat.le_refl _), Nat.le_refl _⟩
  | fault hc =>
    refine ⟨.inl ?_, ?_⟩
    · show (w.db.recorded id).length + 0 ≤ _
      omega
    · show executedFor w.executed id + 0 + _ ≤ _
      omega

/-- What a callback is about to do, by its phase. -/
theorem about_le {t : Task} {g : Phase} (hp : t.prog.Obeys (monitor t.label.body) Ended g)
    (id : Key) :
    (About Call.isInsert id t).toNat ≤ (decide (g = .absent)).toNat ∧
      (About Call.isUpdate id t).toNat ≤ (decide (g = .recorded)).toNat := by
  have hphase := phase_of_about hp
  refine ⟨?_, ?_⟩
  · cases h : t.prog.head?.any Call.isInsert with
    | false => simp [About, h]
    | true => simp [hphase.1 h, Bool.toNat_le]
  · cases h : t.prog.head?.any Call.isUpdate with
    | false => simp [About, h]
    | true => simp [hphase.2 h, Bool.toNat_le]

theorem about_of_head {kind : Call → Bool} {id : Key} {t : Task} {c : Call}
    (hc : t.prog.head? = some c) (hid : t.label.body.event_id? = some id) :
    About kind id t = kind c := by
  rw [About, hc, decide_eq_true hid, Bool.true_and, Option.any_some]

theorem about_other {kind : Call → Bool} {id : Key} {t : Task}
    (hid : t.label.body.event_id? ≠ some id) : About kind id t = false := by
  rw [About, decide_eq_false hid, Bool.false_and]

/-- Deduplication is kept by every step that meets `NoRace`. -/
theorem Once.step {n : Nat} {s s' : State} {a : Action} (ho : Once s) (hb : Base n s)
    (ha : NoRace s a) (h : step n s a = some s') : Once s' := by
  cases move_of_step hb h with
  | publish b => exact ⟨ho.recorded, ho.executed⟩
  | drop proc => exact ⟨ho.recorded, ho.executed⟩
  | @deliver proc tag m hm hready hproc hidle =>
    -- a new callback starts with a `find_one`, if it makes a call on the store at all
    have hnew := about_le (t := ⟨⟨proc, tag, m.body⟩, callback m.body, ()⟩)
      (callback_obeys (hb.scalarIds _ (List.mem_of_getElem? (by
        rw [World.bodies, List.getElem?_map, hm, Option.map_some]))))
    refine ⟨fun id => ?_, fun id => ?_⟩
    · have hrec := ho.recorded id
      have hle := (hnew id).1
      have hzero : (decide (Phase.start = .absent)).toNat = 0 := rfl
      have hsplit := about_split Call.isInsert id s.tasks []
        ⟨⟨proc, tag, m.body⟩, callback m.body, ()⟩
      have hnil : about Call.isInsert id [] = 0 := rfl
      show (s.shared.db.recorded id).length +
        about Call.isInsert id (s.tasks ++ [⟨⟨proc, tag, m.body⟩, callback m.body, ()⟩]) ≤ 1
      omega
    · have hrec := ho.executed id
      have hle := (hnew id).2
      have hzero : (decide (Phase.start = .recorded)).toNat = 0 := rfl
      have hsplit := about_split Call.isUpdate id s.tasks []
        ⟨⟨proc, tag, m.body⟩, callback m.body, ()⟩
      have hnil : about Call.isUpdate id [] = 0 := rfl
      show executedFor s.shared.executed id +
        about Call.isUpdate id (s.tasks ++ [⟨⟨proc, tag, m.body⟩, callback m.body, ()⟩]) ≤
          (s.shared.db.recorded id).length
      omega
  | @leave _ i l₁ l₂ t ms ha hi hs hms hfin =>
    refine ⟨fun id => ?_, fun id => ?_⟩
    · have hrec := ho.recorded id
      have hsplit := about_split Call.isInsert id l₁ l₂ t
      rw [hs] at hrec
      show (s.shared.db.recorded id).length + about Call.isInsert id (l₁ ++ l₂) ≤ 1
      rw [about_append]
      omega
    · have hrec := ho.executed id
      have hsplit := about_split Call.isUpdate id l₁ l₂ t
      rw [hs] at hrec
      show executedFor s.shared.executed id + about Call.isUpdate id (l₁ ++ l₂) ≤
        (s.shared.db.recorded id).length
      rw [about_append]
      omega
  | @call i ω l₁ l₂ t c w p hi hs hc hcall =>
    obtain ⟨g, hg⟩ := hb.obeys t (List.mem_of_getElem? hi)
    obtain ⟨g', he, hp⟩ := hcall g hg
    refine ⟨fun id => ?_, fun id => ?_⟩
    · have hrec := ho.recorded id
      rw [hs, about_split] at hrec
      show (w.db.recorded id).length + about Call.isInsert id (l₁ ++ { t with prog := p } :: l₂) ≤ 1
      rw [about_split]
      by_cases hid : t.label.body.event_id? = some id
      · have hnew := (about_le (t := { t with prog := p }) hp id).1
        rw [about_of_head hc hid] at hrec
        rcases (he.count hid).1 with hle | ⟨hfind, rfl, rfl, hnil⟩
        · omega
        · -- a miss: nobody else is about to insert, and nothing is recorded
          have hno : about Call.isInsert id l₁ + about Call.isInsert id l₂ = 0 := by
            have hrace := ha t hi (by rw [hc]; exact hfind)
            have hzero : ∀ us : List Task, us ⊆ s.tasks → about Call.isInsert id us = 0 := by
              intro us hus
              refine List.countP_eq_zero.mpr fun u hu => ?_
              by_cases hu' : u.label.body.event_id? = some id
              · have hnot := hrace u (hus hu) (hu'.trans hid.symm)
                simp [About, hnot]
              · simp [about_other hu']
            rw [hzero l₁ (by rw [hs]; exact List.subset_append_left _ _),
              hzero l₂ (by
                rw [hs]
                exact fun u hu => List.mem_append_right _ (List.mem_cons_of_mem _ hu))]
          have hle := Bool.toNat_le (decide (g' = .absent))
          rw [hnil, List.length_nil]
          omega
      · rw [about_other hid] at hrec
        rw [(he.count_other hid).1, about_other (t := { t with prog := p }) hid]
        exact hrec
    · have hexec := ho.executed id
      rw [hs, about_split] at hexec
      show executedFor w.executed id + about Call.isUpdate id (l₁ ++ { t with prog := p } :: l₂) ≤
        (w.db.recorded id).length
      rw [about_split]
      by_cases hid : t.label.body.event_id? = some id
      · have hnew := (about_le (t := { t with prog := p }) hp id).2
        rw [about_of_head hc hid] at hexec
        have hle := (he.count hid).2
        omega
      · rw [about_other hid] at hexec
        rw [(he.count_other hid).1, (he.count_other hid).2,
          about_other (t := { t with prog := p }) hid]
        exact hexec

/-! ## Over whole runs -/

/-- What every run keeps whose bodies have scalar ids and whose steps meet `NoRace`. -/
theorem once_exec {n : Nat} {s s' : State} {as : List Action} (hb : Base n s) (ho : Once s)
    (hadm : ∀ a ∈ as, a.admissible) (hrace : Runs.Meets (step n) NoRace s as)
    (hrun : Runs.exec (step n) s as = some s') : Base n s' ∧ Once s' := by
  have hmeets := (Runs.meets_of_mem hadm s).and hrace
  exact Runs.exec_invariant (I := fun s => Base n s ∧ Once s)
    (fun s a s' hs ha hstep => ⟨hs.1.step ha.1 hstep, hs.2.step hs.1 ha.2 hstep⟩)
    ⟨hb, ho⟩ hmeets hrun

/-- The update of an event is executed at most once. -/
theorem Once.executed_le_one {s : State} (ho : Once s) (id : Key) :
    executedFor s.shared.executed id ≤ 1 := by
  have hrec := ho.recorded id
  have hexec := ho.executed id
  omega

theorem Once.recorded_le_one {s : State} (ho : Once s) (id : Key) :
    (s.shared.db.recorded id).length ≤ 1 := by
  have hrec := ho.recorded id
  omega

/-- One consumer runs one callback at a time. -/
theorem Base.tasks_of_one {s : State} (hb : Base 1 s) {t u : Task} (ht : t ∈ s.tasks)
    (hu : u ∈ s.tasks) : t = u := by
  have hproc : ∀ l ∈ labels s, l.proc = 0 := by
    intro l hl
    have hlt := (hb.placed l hl).proc_lt
    omega
  have hlen : s.tasks.length ≤ 1 := by
    have hnodup := hb.procs
    rw [List.eq_replicate_of_mem (a := 0) (l := (labels s).map (·.proc)) (by
      intro p hp
      obtain ⟨l, hl, rfl⟩ := List.mem_map.mp hp
      exact hproc l hl), List.nodup_replicate] at hnodup
    rw [List.length_map, labels, List.length_map] at hnodup
    exact hnodup
  exact Lists.eq_of_length_le_one hlen ht hu

/-- With one consumer no callback runs into another. -/
theorem Base.noRace {s : State} (hb : Base 1 s) (a : Action) : NoRace s a := by
  cases a with
  | call i ω =>
    cases ω with
    | ok =>
      intro t hi hfind u hu _
      -- the one callback is about to find, not to insert
      rw [hb.tasks_of_one hu (List.mem_of_getElem? hi)]
      rw [Option.any_eq_true] at hfind
      obtain ⟨c, hc, hf⟩ := hfind
      rw [hc, Option.any_some]
      cases c with
      | find_one coll filter => rfl
      | _ => cases hf
    | raises applied => trivial
  | _ => trivial

/-- What every run of one consumer keeps. -/
theorem one_consumer_exec {s s' : State} {as : List Action} (hb : Base 1 s) (ho : Once s)
    (hadm : ∀ a ∈ as, a.admissible) (hrun : Runs.exec (step 1) s as = some s') :
    Base 1 s' ∧ Once s' :=
  Runs.exec_invariant (I := fun s => Base 1 s ∧ Once s)
    (fun _ a _ hs ha hstep => ⟨hs.1.step ha hstep, hs.2.step hs.1 (hs.1.noRace a) hstep⟩)
    ⟨hb, ho⟩ (Runs.meets_of_mem hadm s) hrun

/-! ## Counters count distinct events -/

/-- The distinct event ids delivered so far that a counter counts. -/
def countedIds (w : World) (c : Counter) (key : Key) : List Key :=
  ((w.delivered.filter fun b => b.counted c key).filterMap fun b => b.event_id?).dedup

/-- The ids of the executed updates that a counter counts are distinct. -/
theorem Once.nodup_ids {s : State} (ho : Once s) (c : Counter) (key : Key) :
    ((s.shared.executed.filter fun x => x.body.counted c key).filterMap
      fun x => x.body.event_id?).Nodup := by
  rw [List.nodup_iff_count_le_one]
  intro id
  rw [List.count_filterMap, List.countP_filter]
  calc
    _ ≤ executedFor s.shared.executed id := by
      refine List.countP_mono_left fun x _ hx => ?_
      rw [Bool.and_eq_true, beq_iff_eq] at hx
      exact decide_eq_true hx.1
    _ ≤ 1 := ho.executed_le_one id

/-- A counter is at most the number of distinct events delivered that it counts. -/
theorem counter_le_countedIds {n : Nat} {s : State} (hb : Base n s) (ho : Once s) (c : Counter)
    (key : Key) :
    (readModel s.shared.db).counter c key ≤ (countedIds s.shared c key).length := by
  have happlied : appliedFor s.shared.executed c key ≤
      (s.shared.executed.filter fun x => x.body.counted c key).length := by
    rw [← List.countP_eq_length_filter]
    refine List.countP_mono_left fun x _ hx => ?_
    rw [Bool.and_eq_true] at hx
    exact hx.2
  have hlength : ((s.shared.executed.filter fun x => x.body.counted c key).filterMap
      fun x => x.body.event_id?).length =
        (s.shared.executed.filter fun x => x.body.counted c key).length := by
    rw [List.filterMap_length_eq_length]
    intro x hx
    exact (hb.executed x (List.mem_of_mem_filter hx)).2
  have hsub : (s.shared.executed.filter fun x => x.body.counted c key).filterMap
      (fun x => x.body.event_id?) ⊆ countedIds s.shared c key := by
    intro id hid
    obtain ⟨x, hx, hxid⟩ := List.mem_filterMap.mp hid
    obtain ⟨hmem, hcounted⟩ := List.mem_filter.mp hx
    rw [countedIds, List.mem_dedup]
    exact List.mem_filterMap.mpr
      ⟨x.body, List.mem_filter.mpr ⟨(hb.executed x hmem).1, hcounted⟩, hxid⟩
  have hle := (List.subperm_of_subset (ho.nodup_ids c key) hsub).length_le
  rw [hb.counters]
  omega

/-- **No double counting with one consumer.** On events whose ids are scalars, however calls fail,
processes die and messages are delivered again: the update of each event is executed at most once,
each counter is at most the number of distinct events of its kind and key delivered so far and never
decreases, and each view has one document per key. -/
theorem one_consumer_never_counts_twice {as bs : List Action} {s s' : State}
    (hadm : ∀ a ∈ as ++ bs, a.admissible)
    (hrun : Runs.exec (step 1) State.init as = some s)
    (hrun' : Runs.exec (step 1) s bs = some s') :
    (∀ id, executedFor s.shared.executed id ≤ 1) ∧
      (∀ c key, (readModel s.shared.db).counter c key ≤ (countedIds s.shared c key).length) ∧
      (∀ c key,
        (readModel s.shared.db).counter c key ≤ (readModel s'.shared.db).counter c key) ∧
      ∀ v, v ≠ .processed_events → Keyed v.keyField (s.shared.db.coll v) := by
  have has : ∀ a ∈ as, a.admissible := fun a ha => hadm a (List.mem_append_left _ ha)
  have hbs : ∀ a ∈ bs, a.admissible := fun a ha => hadm a (List.mem_append_right _ ha)
  obtain ⟨hb, ho⟩ := one_consumer_exec (base_init 1) once_init has hrun
  refine ⟨ho.executed_le_one, counter_le_countedIds hb ho, fun c key => ?_, hb.views.keyed⟩
  exact Runs.exec_relation (I := Base 1)
    (Q := fun s s' => (readModel s.shared.db).counter c key ≤ (readModel s'.shared.db).counter c key)
    (fun _ => Int.le_refl _) (fun _ _ _ => Int.le_trans)
    (fun _ _ _ hb ha hstep => ⟨hb.step ha hstep, hb.counter_le ha hstep c key⟩)
    hb (Runs.meets_of_mem hbs s) hrun'

/-- An event published twice: the second delivery finds it recorded. -/
def duplicateRun : List Action :=
  [.publish (postCreated "e-1" "u-1"), .publish (postCreated "e-1" "u-1"), .deliver 0 0,
    .call 0 .ok, .call 0 .ok, .call 0 .ok, .call 0 .ok, .finish 0, .deliver 0 1, .call 0 .ok,
    .call 0 .ok, .finish 0]

theorem one_consumer_never_counts_twice_duplicate :
    ∃ s, Runs.exec (step 1) State.init duplicateRun = some s ∧
      ∀ id, executedFor s.shared.executed id ≤ 1 := by
  have hsome : (Runs.exec (step 1) State.init duplicateRun).isSome = true := by decide
  obtain ⟨s, hs⟩ := Option.isSome_iff_exists.mp hsome
  have hadm : ∀ a ∈ duplicateRun ++ [], a.admissible := by
    simp [duplicateRun, Action.admissible, scalarIds_postCreated]
  exact ⟨s, hs, (one_consumer_never_counts_twice hadm hs (Runs.exec_nil s)).1⟩

/-! Without the condition on ids, the one consumer does count twice. -/

/-- The distinct `event_id`s of the posts delivered so far whose `author_id` is this value. -/
def postsBy (w : World) (author_id : Value) : List Value :=
  ((w.delivered.filter fun b => str? b.value "event_type" = some "PostCreated" ∧
    (item? b.value "payload").bind (item? · "author_id") = some author_id).filterMap
      fun b => item? b.value "event_id").dedup

/-- A post whose `author_id` is an array. -/
def arrayPost : Body :=
  .json (event "e-1" "PostCreated" "2026-05-19T10:00:00Z" "wall-service"
    (.obj [("post_id", .str "p-1"), ("author_id", .arr [.str "a", .str "b"])]))

/-- The array gets a document; the post of its element `a` is then counted in it. -/
def arrayRun : List Action :=
  [.publish arrayPost, .publish (postCreated "e-2" "a"), .deliver 0 0, .call 0 .ok, .call 0 .ok,
    .call 0 .ok, .call 0 .ok, .finish 0, .deliver 0 1, .call 0 .ok, .call 0 .ok, .call 0 .ok]

/-- `posts_count` of the user `["a", "b"]` is 2, and only one event has this `author_id`. -/
theorem array_author_counted_twice :
    ¬ ∀ as s, Runs.exec (step 1) State.init as = some s →
      ∀ d ∈ s.shared.db.user_activity_view, ∀ author_id, d.get "user_id" = some author_id →
        countOf (d.get "posts_count") ≤ (postsBy s.shared author_id).length := by
  intro hall
  have hrun : (Runs.exec (step 1) State.init arrayRun).map (fun s =>
      (s.shared.db.user_activity_view, (postsBy s.shared (.arr [.str "a", .str "b"])).length)) =
        some ([[("user_id", .arr [.str "a", .str "b"]), ("posts_count", .int 2)]], 1) := by decide
  obtain ⟨s, hs, he⟩ := Option.map_eq_some_iff.mp hrun
  rw [Prod.mk.injEq] at he
  have hle := hall arrayRun s hs [("user_id", .arr [.str "a", .str "b"]), ("posts_count", .int 2)]
    (by rw [he.1]; exact List.mem_singleton_self _) _ rfl
  rw [he.2] at hle
  revert hle
  decide

/-- **Deduplication with competing consumers.** In every run on events with scalar ids that meets
`NoRace`, an event is recorded and its update executed at most once. -/
theorem competing_consumers_deduplicate {n : Nat} {as : List Action} {s : State}
    (hadm : ∀ a ∈ as, a.admissible) (hrace : Runs.Meets (step n) NoRace State.init as)
    (hrun : Runs.exec (step n) State.init as = some s) (id : Key) :
    (s.shared.db.recorded id).length ≤ 1 ∧ executedFor s.shared.executed id ≤ 1 := by
  obtain ⟨-, ho⟩ := once_exec (base_init n) once_init hadm hrace hrun
  exact ⟨ho.recorded_le_one id, ho.executed_le_one id⟩

/-- The broker drops the connection of the first consumer while it is between its `find_one`
and its `insert_one`, and gives the event to the second one. -/
def raceRun : List Action :=
  [.publish (postCreated "e-1" "u-1"), .deliver 0 0, .call 0 .ok, .drop 0, .deliver 1 0,
    .call 1 .ok, .call 0 .ok, .call 1 .ok, .call 0 .ok, .call 1 .ok]

/-- Both consumers record the event and count the post. -/
theorem raceRun_counts_twice :
    (∀ a ∈ raceRun, a.admissible) ∧
      ∃ s, Runs.exec (step 2) State.init raceRun = some s ∧
        (s.shared.db.recorded "e-1").length = 2 ∧ executedFor s.shared.executed "e-1" = 2 ∧
        (readModel s.shared.db).counter .posts_count "u-1" = 2 := by
  refine ⟨?_, ?_⟩
  · simp [raceRun, Action.admissible, scalarIds_postCreated]
  · have hrun : (Runs.exec (step 2) State.init raceRun).map (fun s =>
        ((s.shared.db.recorded "e-1").length, executedFor s.shared.executed "e-1",
          (readModel s.shared.db).counter .posts_count "u-1")) = some (2, 2, 2) := by decide
    obtain ⟨s, hs, he⟩ := Option.map_eq_some_iff.mp hrun
    simp only [Prod.mk.injEq] at he
    exact ⟨s, hs, he⟩

/-- The same deliveries, the second one after the first consumer has inserted: the event is a
duplicate. -/
def orderlyRun : List Action :=
  [.publish (postCreated "e-1" "u-1"), .deliver 0 0, .call 0 .ok, .drop 0, .call 0 .ok,
    .deliver 1 0, .call 1 .ok, .call 0 .ok, .call 1 .ok]

theorem competing_consumers_deduplicate_orderly :
    ∃ s, Runs.exec (step 2) State.init orderlyRun = some s ∧
      (s.shared.db.recorded "e-1").length ≤ 1 ∧ executedFor s.shared.executed "e-1" ≤ 1 := by
  have hsome : (Runs.exec (step 2) State.init orderlyRun).isSome = true := by decide
  obtain ⟨s, hs⟩ := Option.isSome_iff_exists.mp hsome
  have hadm : ∀ a ∈ orderlyRun, a.admissible := by
    simp [orderlyRun, Action.admissible, scalarIds_postCreated]
  exact ⟨s, hs, competing_consumers_deduplicate hadm (by decide) hs "e-1"⟩

end SocialNetwork.EventService

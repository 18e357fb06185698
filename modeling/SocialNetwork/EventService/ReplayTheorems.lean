import SocialNetwork.EventService.OrderTheorems
import SocialNetwork.EventService.ProjectionTheorems

/-!
# The read model as a replay

`processed_events` keeps every event the consumers took, with all its fields. Whatever fails and
however many consumers run, the views are the replay of the updates that took effect, each of them for
a recorded event (`Explained`). With one consumer these are recorded events, each once and in the
order of the records (`Ordered`); and if nothing separates a record from its projection, an emptied
queue leaves the replay of all records.
-/

namespace SocialNetwork.EventService

open DocStore

/-! ## What is recorded -/

/-- The document holds the event: its five keys, as the event has them. -/
def Holds (doc : Doc) (b : Body) : Prop :=
  ∀ key ∈ ["event_id", "event_type", "occurred_at", "producer", "payload"],
    ∃ value, item? b.value key = some value ∧ doc.get key = some value

/-- The bodies whose update took effect, in order. -/
def World.applied (w : World) : List Body := (w.executed.filter (·.applied)).map (·.body)

/-- A callback inserts its own event. -/
def recording (b : Body) : Prog.Monitor Call Call.Answer PyError Phase where
  ok _ c :=
    match c with
    | .insert_one _ doc => Holds doc b
    | _ => True
  next g _ _ := g

theorem process_event_records (v : Value) :
    (process_event v).Obeys (recording (.json v)) (fun _ _ => True) .start := by
  have hupdate : ∀ (coll : Coll) (filter : Filter) (update : Update) (upsert : Bool),
      (update_one coll filter update upsert).Obeys (recording (.json v)) (fun _ _ => True) .start :=
    fun coll filter update upsert => obeys_update_one trivial fun _ => trivial
  unfold process_event
  refine obeys_subscript (fun event_id hid => ?_) fun _ _ => trivial
  refine obeys_subscript (fun event_type htype => ?_) fun _ _ => trivial
  refine obeys_subscript (fun payload hpayload => ?_) fun _ _ => trivial
  refine Prog.obeys_bind.mpr (Prog.obeys_perform.mpr ⟨trivial, fun r => ?_⟩)
  rcases r with e | found
  · trivial
  rcases found with _ | d
  · refine obeys_subscript (fun occurred_at hat => ?_) fun _ _ => trivial
    refine obeys_subscript (fun producer hproducer => ?_) fun _ _ => trivial
    -- The document is made of the five values just read.
    refine Prog.obeys_bind.mpr (Prog.obeys_perform.mpr ⟨?_, fun r => ?_⟩)
    · intro key hkey
      simp only [List.mem_cons, List.not_mem_nil, or_false] at hkey
      rcases hkey with rfl | rfl | rfl | rfl | rfl
      · exact ⟨event_id, hid, rfl⟩
      · exact ⟨event_type, htype, rfl⟩
      · exact ⟨occurred_at, hat, rfl⟩
      · exact ⟨producer, hproducer, rfl⟩
      · exact ⟨payload, hpayload, rfl⟩
    · rcases r with e | _
      · trivial
      split_ifs
      · refine obeys_subscript (fun _ _ => ?_) fun _ _ => trivial
        refine obeys_subscript (fun _ _ => ?_) fun _ _ => trivial
        refine obeys_subscript (fun _ _ => ?_) fun _ _ => trivial
        refine obeys_subscript (fun _ _ => ?_) fun _ _ => trivial
        exact hupdate _ _ _ _
      · refine obeys_subscript (fun _ _ => ?_) fun _ _ => trivial
        exact hupdate _ _ _ _
      · refine obeys_subscript (fun _ _ => ?_) fun _ _ => trivial
        exact hupdate _ _ _ _
      · refine obeys_subscript (fun _ _ => ?_) fun _ _ => trivial
        refine obeys_subscript (fun _ _ => ?_) fun _ _ => trivial
        exact hupdate _ _ _ _
      · refine obeys_subscript (fun _ _ => ?_) fun _ _ => trivial
        refine obeys_subscript (fun _ _ => ?_) fun _ _ => trivial
        exact hupdate _ _ _ _
      · trivial
  · trivial

theorem callback_records (b : Body) :
    (callback b).Obeys (recording b) (fun _ _ => True) .start := by
  refine Prog.obeys_tryCatch.mpr ?_
  cases b with
  | invalid => exact Prog.obeys_perform.mpr ⟨trivial, fun _ => trivial⟩
  | json v =>
    rw [json_loads, Prog.ret_bind]
    refine Prog.obeys_bind.mpr ((process_event_records v).mono fun r g _ => ?_)
    rcases r with e | _
    · exact Prog.obeys_perform.mpr ⟨trivial, fun _ => trivial⟩
    · refine Prog.obeys_perform.mpr ⟨trivial, fun r => ?_⟩
      rcases r with e | _
      · exact Prog.obeys_perform.mpr ⟨trivial, fun _ => trivial⟩
      · trivial

/-- Every running callback inserts its own event. -/
def Recording (s : State) : Prop :=
  ∀ t ∈ s.tasks, ∃ g, t.prog.Obeys (recording t.label.body) (fun _ _ => True) g

theorem Recording.step {n : Nat} {s s' : State} {a : Action} (hr : Recording s)
    (h : step n s a = some s') : Recording s' := by
  cases a with
  | publish b =>
    cases h
    exact hr
  | drop proc =>
    cases h
    exact hr
  | deliver proc tag =>
    simp only [EventService.step] at h
    split at h
    · cases h
    · next m hm =>
      split_ifs at h
      cases h
      intro t ht
      rcases List.mem_append.mp ht with ht | ht
      · exact hr t ht
      · rw [List.mem_singleton.mp ht]
        exact ⟨.start, callback_records m.body⟩
  | call i ω =>
    -- a callback keeps to its protocol call by call
    exact Pool.advance_obeys (M := fun l : Delivery => recording l.body) (Q := fun _ _ _ => True) hr h
  | finish i =>
    simp only [EventService.step] at h
    split at h
    · cases h
    · next l r s₁ hretire =>
      cases h
      obtain ⟨t, _, _, _, rfl⟩ := Pool.retire_eraseIdx hretire
      exact fun u hu => hr u (List.mem_of_mem_eraseIdx hu)
    · next l e s₁ hretire =>
      cases h
      obtain ⟨t, _, _, _, rfl⟩ := Pool.retire_eraseIdx hretire
      exact fun u hu => hr u (List.mem_of_mem_eraseIdx hu)
  | crash i =>
    simp only [EventService.step] at h
    split at h
    · cases h
    · cases h
      exact fun u hu => hr u (List.mem_of_mem_eraseIdx hu)

/-! ## What a call adds -/

section Effect

variable {l : Delivery} {w w' : World} {c : Call} {ω : Outcome} {g g' : Phase}

theorem applied_append (w : World) (db : Db) (b : Body) (applied : Bool) :
    World.applied { w with db := db, executed := w.executed ++ [⟨b, applied⟩] } =
      w.applied ++ if applied = true then [b] else [] := by
  unfold World.applied
  rw [List.filter_append, List.map_append]
  cases applied with
  | false => rfl
  | true => rfl

/-- A call inserts a document into `processed_events`, or it leaves them alone. -/
theorem Effect.inserts (h : Effect l w c ω g w' g') :
    (w'.db.processed_events = w.db.processed_events ∧ g' ≠ .recorded) ∨
      ∃ coll doc, c = .insert_one coll doc ∧
        w'.db.processed_events = w.db.processed_events ++ [doc] := by
  cases h with
  | @record doc _ _ _ _ _ => exact .inr ⟨_, doc, rfl, rfl⟩
  | @project _ _ _ _ _ _ k db hω _ _ hdb =>
    have hp := k.processed_events_call w.db
    rw [hdb] at hp
    left
    refine ⟨hp, ?_⟩
    rcases hω with rfl | rfl <;> exact fun hg => by cases hg
  | ack hω _ =>
    left
    refine ⟨rfl, ?_⟩
    rcases hω with rfl | rfl <;> exact fun hg => by cases hg
  | nack hω =>
    left
    refine ⟨rfl, ?_⟩
    rcases hω with rfl | rfl <;> exact fun hg => by cases hg
  | _ => exact .inl ⟨rfl, fun hg => by cases hg⟩

/-- A call applies the update of its event, or it leaves the views alone. -/
theorem Effect.applies (h : Effect l w c ω g w' g') (hv : Views w.db) :
    (w'.applied = w.applied ∧ ∀ v, v ≠ .processed_events → readModel w'.db v = readModel w.db v) ∨
      ∃ k, g = .recorded ∧ l.body.kind? = some k ∧ w'.applied = w.applied ++ [l.body] ∧
        readModel w'.db = ReadModel.step k (readModel w.db) := by
  cases h with
  | record _ _ _ =>
    refine .inl ⟨rfl, fun v hne => ?_⟩
    cases v with
    | processed_events => exact absurd rfl hne
    | _ => rfl
  | @project _ _ _ _ _ _ k db _ _ hk hdb =>
    obtain ⟨db', hdb', _, _, hmodel⟩ := hv.project k
    cases hdb.symm.trans hdb'
    exact .inr ⟨k, rfl, hk, applied_append w db l.body true, hmodel⟩
  | miscarry _ _ =>
    left
    refine ⟨?_, fun _ _ => rfl⟩
    exact (applied_append w w.db l.body false).trans (List.append_nil _)
  | _ => exact .inl ⟨rfl, fun _ _ => rfl⟩

/-- The executed updates of a call are those of its event, which is recorded. -/
theorem Effect.executes (h : Effect l w c ω g w' g') :
    w'.executed = w.executed ∨
      g = .recorded ∧ ∃ applied, w'.executed = w.executed ++ [⟨l.body, applied⟩] := by
  cases h with
  | project _ _ _ _ => exact .inr ⟨rfl, true, rfl⟩
  | miscarry _ _ => exact .inr ⟨rfl, false, rfl⟩
  | _ => exact .inl rfl

end Effect

/-- A step of the read model at a view depends on that view. -/
theorem ReadModel.step_congr {m m' : ReadModel} {v : Coll} (h : m v = m' v) (k : EventKind) :
    ReadModel.step k m v = ReadModel.step k m' v := by
  funext key
  rw [ReadModel.step, ReadModel.step, h]

theorem ReadModel.run_append (m : ReadModel) (ks : List EventKind) (k : EventKind) :
    ReadModel.run m (ks ++ [k]) = ReadModel.step k (ReadModel.run m ks) := by
  rw [ReadModel.run, List.foldl_append]
  rfl

theorem kinds_append {b : Body} {k : EventKind} (hk : b.kind? = some k) (bodies : List Body) :
    kinds (bodies ++ [b]) = kinds bodies ++ [k] := by
  rw [kinds, List.filterMap_append]
  congr 1
  exact List.filterMap_cons_some hk

/-! ## Any number of consumers -/

/-- The views are the replay of the updates that took effect. -/
def Replays (w : World) : Prop :=
  ∀ v, v ≠ .processed_events → readModel w.db v = ReadModel.run .empty (kinds w.applied) v

/-- What holds however many consumers run and whatever fails. -/
structure Explained (s : State) : Prop where
  replays : Replays s.shared
  /-- Every record is of a published event. -/
  published : ∀ d ∈ s.shared.db.processed_events, ∃ b ∈ s.shared.bodies, Holds d b
  /-- A callback past its insert has a record. -/
  running : ∀ t ∈ s.tasks, ∃ g, t.prog.Obeys (monitor t.label.body) Ended g ∧
    (g = .recorded → ∃ d ∈ s.shared.db.processed_events, Holds d t.label.body)
  /-- Every update executed was for a recorded event. -/
  sourced : ∀ x ∈ s.shared.executed, ∃ d ∈ s.shared.db.processed_events, Holds d x.body
  /-- No update was executed more often than its event was recorded. -/
  counted : ∀ id, executedFor s.shared.executed id + about Call.isUpdate id s.tasks ≤
    (s.shared.db.recorded id).length

theorem explained_init : Explained State.init where
  replays v hv := by
    cases v with
    | processed_events => exact absurd rfl hv
    | user_activity_view => rfl
    | post_activity_view => rfl
  published _ hd := by cases hd
  running _ ht := by cases ht
  sourced _ hx := by cases hx
  counted id := by
    show 0 + 0 ≤ 0
    omega

/-- Steps that leave the collections alone and start no callback but from its beginning. -/
theorem Explained.keep {s s' : State} (he : Explained s) (hdb : s'.shared.db = s.shared.db)
    (hx : s'.shared.executed = s.shared.executed) (hbodies : s.shared.bodies ⊆ s'.shared.bodies)
    (htasks : ∀ t ∈ s'.tasks, t ∈ s.tasks ∨ t.prog.Obeys (monitor t.label.body) Ended .start)
    (habout : ∀ id, about Call.isUpdate id s'.tasks ≤ about Call.isUpdate id s.tasks) :
    Explained s' where
  replays := by
    rw [Replays, World.applied, hdb, hx]
    exact he.replays
  published d hd := by
    rw [hdb] at hd
    obtain ⟨b, hb, hholds⟩ := he.published d hd
    exact ⟨b, hbodies hb, hholds⟩
  running t ht := by
    rw [hdb]
    rcases htasks t ht with hold | hnew
    · exact he.running t hold
    · exact ⟨.start, hnew, fun hg => by cases hg⟩
  sourced := by
    rw [hdb, hx]
    exact he.sourced
  counted id := by
    have hold := he.counted id
    have hle := habout id
    rw [hdb, hx]
    omega

/-- What a call of a delivery keeps. -/
theorem Explained.call {s : State} {l₁ l₂ : List Task} {t : Task} {c : Call} {ω : Outcome}
    {g g' : Phase} {w : World} {p : Py Unit} (he : Explained s) (hv : Views s.shared.db)
    (hbody : t.label.body ∈ s.shared.bodies) (hs : s.tasks = l₁ ++ t :: l₂)
    (hc : t.prog.head? = some c) (hcall : Effect t.label s.shared c ω g w g')
    (hg : g = .recorded → ∃ d ∈ s.shared.db.processed_events, Holds d t.label.body)
    (hinsert : ∀ coll doc, c = .insert_one coll doc → Holds doc t.label.body)
    (hp : p.Obeys (monitor t.label.body) Ended g') :
    Explained ⟨w, l₁ ++ { t with prog := p } :: l₂⟩ := by
  have hbodies : w.bodies = s.shared.bodies := hcall.frame.1
  -- Records stay, and a new one is of this event.
  have hmono : s.shared.db.processed_events ⊆ w.db.processed_events := by
    rcases hcall.inserts with ⟨hsame, _⟩ | ⟨_, doc, _, happend⟩
    · rw [hsame]
      exact List.Subset.refl _
    · rw [happend]
      exact List.subset_append_left _ _
  refine ⟨?_, ?_, ?_, ?_, ?_⟩
  · intro v hne
    rcases hcall.applies hv with ⟨hsame, hviews⟩ | ⟨k, _, hk, happlied, hmodel⟩
    · show readModel w.db v = ReadModel.run .empty (kinds w.applied) v
      rw [hsame, hviews v hne]
      exact he.replays v hne
    · show readModel w.db v = ReadModel.run .empty (kinds w.applied) v
      rw [happlied, kinds_append hk, ReadModel.run_append, hmodel]
      exact ReadModel.step_congr (he.replays v hne) k
  · intro d hd
    rw [hbodies]
    rcases hcall.inserts with ⟨hsame, _⟩ | ⟨coll, doc, hdoc, happend⟩
    · exact he.published d (hsame ▸ hd)
    · rw [happend] at hd
      rcases List.mem_append.mp hd with hd | hd
      · exact he.published d hd
      · rw [List.mem_singleton.mp hd]
        exact ⟨_, hbody, hinsert coll doc hdoc⟩
  · intro u hu
    have hold : u ∈ s.tasks → ∃ g, u.prog.Obeys (monitor u.label.body) Ended g ∧
        (g = .recorded → ∃ d ∈ w.db.processed_events, Holds d u.label.body) := by
      intro hmem
      obtain ⟨gu, hpu, hgu⟩ := he.running u hmem
      refine ⟨gu, hpu, fun heq => ?_⟩
      obtain ⟨d, hd, hholds⟩ := hgu heq
      exact ⟨d, hmono hd, hholds⟩
    rcases List.mem_append.mp hu with hu | hu
    · exact hold (by rw [hs]; exact List.mem_append_left _ hu)
    · rcases List.mem_cons.mp hu with rfl | hu
      · refine ⟨g', hp, fun heq => ?_⟩
        rcases hcall.inserts with ⟨_, hne⟩ | ⟨coll, doc, hdoc, happend⟩
        · exact absurd heq hne
        · rw [happend]
          exact ⟨doc, List.mem_append_right _ (List.mem_singleton_self _), hinsert coll doc hdoc⟩
      · exact hold (by rw [hs]; exact List.mem_append_right _ (List.mem_cons_of_mem _ hu))
  · intro x hx
    rcases hcall.executes with hsame | ⟨hrec, applied, happend⟩
    · obtain ⟨d, hd, hholds⟩ := he.sourced x (hsame ▸ hx)
      exact ⟨d, hmono hd, hholds⟩
    · rw [happend] at hx
      rcases List.mem_append.mp hx with hx | hx
      · obtain ⟨d, hd, hholds⟩ := he.sourced x hx
        exact ⟨d, hmono hd, hholds⟩
      · obtain ⟨d, hd, hholds⟩ := hg hrec
        rw [List.mem_singleton.mp hx]
        exact ⟨d, hmono hd, hholds⟩
  · intro id
    have hold := he.counted id
    rw [hs, about_split] at hold
    show executedFor w.executed id + about Call.isUpdate id (l₁ ++ { t with prog := p } :: l₂) ≤
      (w.db.recorded id).length
    rw [about_split]
    by_cases hid : t.label.body.event_id? = some id
    · have hnew := (about_le (t := { t with prog := p }) hp id).2
      rw [about_of_head hc hid] at hold
      have hle := (hcall.count hid).2
      omega
    · rw [about_other hid] at hold
      rw [(hcall.count_other hid).1, (hcall.count_other hid).2,
        about_other (t := { t with prog := p }) hid]
      exact hold

theorem Explained.step {n : Nat} {s s' : State} {a : Action} (he : Explained s) (hb : Base n s)
    (hr : Recording s) (h : step n s a = some s') : Explained s' := by
  cases move_of_step hb h with
  | publish b =>
    refine he.keep rfl rfl ?_ (fun t ht => .inl ht) fun _ => le_refl _
    intro x hx
    rw [World.bodies, List.map_append]
    exact List.mem_append_left _ hx
  | drop proc =>
    refine he.keep rfl rfl ?_ (fun t ht => .inl ht) fun _ => le_refl _
    show s.shared.bodies ⊆ (requeue proc s.shared.messages).map (·.body)
    rw [requeue_bodies]
    exact List.Subset.refl _
  | @deliver proc tag m hm hready hproc hidle =>
    have hbodies : (s.shared.messages.modify tag fun m => { m with status := .unacked proc }).map
        (·.body) = s.shared.bodies :=
      Lists.map_modify (f := fun m : Message => { m with status := .unacked proc }) (fun _ => rfl) tag _
    have hmem : m.body ∈ s.shared.bodies := List.mem_map_of_mem (List.mem_of_getElem? hm)
    have hstart : (callback m.body).Obeys (monitor m.body) Ended .start :=
      callback_obeys (hb.scalarIds _ hmem)
    refine he.keep rfl rfl ?_ (fun t ht => ?_) fun id => ?_
    · show s.shared.bodies ⊆ List.map _ _
      rw [hbodies]
      exact List.Subset.refl _
    · rcases List.mem_append.mp ht with ht | ht
      · exact .inl ht
      · rw [List.mem_singleton.mp ht]
        exact .inr hstart
    -- a callback that starts has no update ahead of a record
    · have hnew := (about_le (t := ⟨⟨proc, tag, m.body⟩, callback m.body, ()⟩) hstart id).2
      have hsplit := about_split Call.isUpdate id s.tasks [] ⟨⟨proc, tag, m.body⟩, callback m.body, ()⟩
      have hzero : (decide (Phase.start = .recorded)).toNat = 0 := rfl
      have hnil : about Call.isUpdate id [] = 0 := rfl
      show about Call.isUpdate id (s.tasks ++ [⟨⟨proc, tag, m.body⟩, callback m.body, ()⟩]) ≤ _
      omega
  | @leave _ i l₁ l₂ t ms ha hi hs hms hfin =>
    refine he.keep rfl rfl ?_ (fun u hu => .inl ?_) fun id => ?_
    · show s.shared.bodies ⊆ ms.map (·.body)
      rcases hms with rfl | rfl
      · exact List.Subset.refl _
      · rw [requeue_bodies]
        exact List.Subset.refl _
    · rw [hs]
      rcases List.mem_append.mp hu with hu | hu
      · exact List.mem_append_left _ hu
      · exact List.mem_append_right _ (List.mem_cons_of_mem _ hu)
    · have hsplit := about_split Call.isUpdate id l₁ l₂ t
      rw [hs]
      show about Call.isUpdate id (l₁ ++ l₂) ≤ _
      rw [about_append]
      omega
  | @call i ω l₁ l₂ t c w p hi hs hc hcall =>
    have ht : t ∈ s.tasks := List.mem_of_getElem? hi
    obtain ⟨g, hg, hrecorded⟩ := he.running t ht
    obtain ⟨g', heffect, hp⟩ := hcall g hg
    -- the record that it inserts carries all five fields of the event
    obtain ⟨_, hrecording⟩ := hr t ht
    have hbody : t.label.body ∈ s.shared.bodies :=
      List.mem_of_getElem? (hb.placed t.label (List.mem_map_of_mem ht)).tag
    refine he.call hb.views hbody hs hc heffect hrecorded ?_ hp
    intro coll doc hdoc
    subst hdoc
    exact hrecording.head_ok hc

/-- What every run keeps. -/
theorem explained_exec {n : Nat} {as : List Action} {s : State} (hadm : ∀ a ∈ as, a.admissible)
    (hrun : Runs.exec (step n) State.init as = some s) : Base n s ∧ Recording s ∧ Explained s :=
  Runs.exec_invariant (I := fun s => Base n s ∧ Recording s ∧ Explained s)
    (fun _ _ _ hs ha hstep =>
      ⟨hs.1.step ha hstep, hs.2.1.step hstep, hs.2.2.step hs.1 hs.2.1 hstep⟩)
    ⟨base_init n, fun _ ht => absurd ht List.not_mem_nil, explained_init⟩ (Runs.meets_of_mem hadm _) hrun

/-- **Replay.** However many consumers run on events with scalar ids, and whatever fails or is
delivered again: the views are the replay of the updates that took effect; every update was made for
an event recorded with all its fields, never more often than it was recorded; and every recorded
event was published. -/
theorem views_replay_updates {n : Nat} {as : List Action} {s : State}
    (hadm : ∀ a ∈ as, a.admissible) (hrun : Runs.exec (step n) State.init as = some s) :
    Replays s.shared ∧
      (∀ x ∈ s.shared.executed, ∃ d ∈ s.shared.db.processed_events, Holds d x.body) ∧
      (∀ id, executedFor s.shared.executed id ≤ (s.shared.db.recorded id).length) ∧
      ∀ d ∈ s.shared.db.processed_events, ∃ b ∈ s.shared.bodies, Holds d b := by
  obtain ⟨_, _, he⟩ := explained_exec hadm hrun
  refine ⟨he.replays, he.sourced, ?_, he.published⟩
  intro id
  have hcounted := he.counted id
  omega

/-- Two consumers race, and both record and count the event. -/
theorem views_replay_updates_race :
    ∃ s, Runs.exec (step 2) State.init raceRun = some s ∧ Replays s.shared ∧
      (∀ x ∈ s.shared.executed, ∃ d ∈ s.shared.db.processed_events, Holds d x.body) ∧
      (∀ id, executedFor s.shared.executed id ≤ (s.shared.db.recorded id).length) ∧
      ∀ d ∈ s.shared.db.processed_events, ∃ b ∈ s.shared.bodies, Holds d b := by
  have hsome : (Runs.exec (step 2) State.init raceRun).isSome = true := by decide
  obtain ⟨s, hs⟩ := Option.isSome_iff_exists.mp hsome
  have hadm : ∀ a ∈ raceRun, a.admissible := by
    simp [raceRun, Action.admissible, scalarIds_postCreated]
  exact ⟨s, hs, views_replay_updates hadm hs⟩

/-! ## One consumer -/

/-- The bodies are those of some of the documents, in their order. -/
def Matched (docs : List Doc) (bodies : List Body) : Prop :=
  ∃ ds, List.Sublist ds docs ∧ List.Forall₂ Holds ds bodies

theorem Matched.append {docs : List Doc} {bodies : List Body} (h : Matched docs bodies)
    (docs' : List Doc) : Matched (docs ++ docs') bodies := by
  obtain ⟨ds, hsub, hholds⟩ := h
  exact ⟨ds, hsub.trans (List.sublist_append_left _ _), hholds⟩

theorem Matched.concat {docs : List Doc} {bodies : List Body} (h : Matched docs bodies) {d : Doc}
    {b : Body} (hd : Holds d b) : Matched (docs ++ [d]) (bodies ++ [b]) := by
  obtain ⟨ds, hsub, hholds⟩ := h
  refine ⟨ds ++ [d], hsub.append (List.Sublist.refl _), ?_⟩
  exact List.rel_append hholds (.cons hd .nil)

/-- The last record is of this event, and its update is still to come. -/
def Pending (w : World) (b : Body) : Prop :=
  ∃ ds d, w.db.processed_events = ds ++ [d] ∧ Holds d b ∧ Matched ds w.applied

/-- What holds of one consumer, whatever fails. -/
structure Ordered (s : State) : Prop where
  matched : Matched s.shared.db.processed_events s.shared.applied
  running : ∀ t ∈ s.tasks, ∃ g, t.prog.Obeys (monitor t.label.body) Ended g ∧
    (g = .recorded → Pending s.shared t.label.body)

theorem ordered_init : Ordered State.init where
  matched := ⟨[], List.Sublist.refl _, .nil⟩
  running _ ht := by cases ht

theorem Ordered.keep {s s' : State} (ho : Ordered s) (hdb : s'.shared.db = s.shared.db)
    (hx : s'.shared.executed = s.shared.executed)
    (htasks : ∀ t ∈ s'.tasks, t ∈ s.tasks ∨ t.prog.Obeys (monitor t.label.body) Ended .start) :
    Ordered s' where
  matched := by
    rw [hdb, World.applied, hx]
    exact ho.matched
  running t ht := by
    have hpending : ∀ b, Pending s'.shared b ↔ Pending s.shared b := by
      intro b
      rw [Pending, Pending, hdb, World.applied, World.applied, hx]
    rcases htasks t ht with hold | hnew
    · obtain ⟨g, hg, hrec⟩ := ho.running t hold
      exact ⟨g, hg, fun heq => (hpending _).mpr (hrec heq)⟩
    · exact ⟨.start, hnew, fun hg => by cases hg⟩

/-- A callback of one consumer runs alone. -/
theorem Base.alone {s : State} {l₁ l₂ : List Task} {t : Task} (hb : Base 1 s)
    (hs : s.tasks = l₁ ++ t :: l₂) : l₁ = [] ∧ l₂ = [] := by
  have hproc : ∀ u ∈ s.tasks, u.label.proc = 0 := by
    intro u hu
    have hlt := (hb.placed u.label (List.mem_map_of_mem hu)).proc_lt
    omega
  have ht : t.label.proc = 0 := hproc t (by rw [hs]; exact List.mem_append_right _ List.mem_cons_self)
  have hnodup := hb.procs
  rw [labels_split hs, List.map_append, List.map_cons, List.nodup_append, List.nodup_cons] at hnodup
  constructor
  · cases l₁ with
    | nil => rfl
    | cons u l₁ =>
      have hu := hproc u (by rw [hs]; exact List.mem_cons_self)
      exact absurd (hu.trans ht.symm) (hnodup.2.2 _ List.mem_cons_self _ List.mem_cons_self)
  · cases l₂ with
    | nil => rfl
    | cons u l₂ =>
      have hu := hproc u (by
        rw [hs]
        exact List.mem_append_right _ (List.mem_cons_of_mem _ List.mem_cons_self))
      have hmem : t.label.proc ∈ ((u :: l₂).map (·.label)).map (·.proc) := by
        rw [ht, ← hu]
        exact List.mem_cons_self
      exact absurd hmem hnodup.2.1.1

/-- What the call of the one callback keeps. -/
theorem Ordered.call {s : State} {t : Task} {c : Call} {ω : Outcome} {g g' : Phase} {w : World}
    {p : Py Unit} (ho : Ordered s) (hv : Views s.shared.db)
    (hcall : Effect t.label s.shared c ω g w g')
    (hg : g = .recorded → Pending s.shared t.label.body)
    (hinsert : ∀ coll doc, c = .insert_one coll doc → Holds doc t.label.body)
    (hp : p.Obeys (monitor t.label.body) Ended g') : Ordered ⟨w, [{ t with prog := p }]⟩ := by
  -- The records so far match the updates after the call; a new record has none yet.
  have hmatched : Matched s.shared.db.processed_events w.applied := by
    rcases hcall.applies hv with ⟨hsame, _⟩ | ⟨k, hrec, _, happlied, _⟩
    · rw [hsame]
      exact ho.matched
    · obtain ⟨ds, d, hds, hd, hmatch⟩ := hg hrec
      rw [hds, happlied]
      exact hmatch.concat hd
  constructor
  · show Matched w.db.processed_events w.applied
    rcases hcall.inserts with ⟨hsame, _⟩ | ⟨_, doc, _, happend⟩
    · rw [hsame]
      exact hmatched
    · rw [happend]
      exact hmatched.append [doc]
  · intro u hu
    rw [List.mem_singleton.mp hu]
    refine ⟨g', hp, fun heq => ?_⟩
    rcases hcall.inserts with ⟨_, hne⟩ | ⟨coll, doc, hdoc, happend⟩
    · exact absurd heq hne
    · exact ⟨_, doc, happend, hinsert coll doc hdoc, hmatched⟩

theorem Ordered.step {s s' : State} {a : Action} (ho : Ordered s) (hb : Base 1 s)
    (hr : Recording s) (h : EventService.step 1 s a = some s') : Ordered s' := by
  cases move_of_step hb h with
  | publish b => exact ho.keep rfl rfl fun t ht => .inl ht
  | drop proc => exact ho.keep rfl rfl fun t ht => .inl ht
  | @deliver proc tag m hm hready hproc hidle =>
    have hmem : m.body ∈ s.shared.bodies := List.mem_map_of_mem (List.mem_of_getElem? hm)
    refine ho.keep rfl rfl fun t ht => ?_
    rcases List.mem_append.mp ht with ht | ht
    · exact .inl ht
    · rw [List.mem_singleton.mp ht]
      exact .inr (callback_obeys (hb.scalarIds _ hmem))
  | @leave _ i l₁ l₂ t ms ha hi hs hms hfin =>
    refine ho.keep rfl rfl fun u hu => .inl ?_
    rw [hs]
    rcases List.mem_append.mp hu with hu | hu
    · exact List.mem_append_left _ hu
    · exact List.mem_append_right _ (List.mem_cons_of_mem _ hu)
  | @call i ω l₁ l₂ t c w p hi hs hc hcall =>
    have ht : t ∈ s.tasks := List.mem_of_getElem? hi
    -- one consumer: nothing else is being handled
    obtain ⟨rfl, rfl⟩ := hb.alone hs
    obtain ⟨g, hg, hpending⟩ := ho.running t ht
    obtain ⟨g', heffect, hp⟩ := hcall g hg
    obtain ⟨_, hrecording⟩ := hr t ht
    refine ho.call hb.views heffect hpending ?_ hp
    intro coll doc hdoc
    subst hdoc
    exact hrecording.head_ok hc

/-- What every run of one consumer keeps. -/
theorem ordered_exec {as : List Action} {s : State} (hadm : ∀ a ∈ as, a.admissible)
    (hrun : Runs.exec (step 1) State.init as = some s) : Once s ∧ Ordered s := by
  have hinv := Runs.exec_invariant (I := fun s => Base 1 s ∧ Recording s ∧ Once s ∧ Ordered s)
    (fun _ a _ hs ha hstep =>
      ⟨hs.1.step ha hstep, hs.2.1.step hstep, hs.2.2.1.step hs.1 (hs.1.noRace a) hstep,
        hs.2.2.2.step hs.1 hs.2.1 hstep⟩)
    ⟨base_init 1, fun _ ht => absurd ht List.not_mem_nil, once_init, ordered_init⟩
    (Runs.meets_of_mem hadm _) hrun
  exact hinv.2.2

/-- The ids under which events are recorded are distinct. -/
theorem nodup_recorded {s : State} (ho : Once s)
    (hids : ∀ d ∈ s.shared.db.processed_events, ∃ id : Key, d.get "event_id" = some id.val) :
    (s.shared.db.processed_events.map fun d => d.get "event_id").Nodup := by
  rw [List.nodup_iff_count_le_one]
  intro value
  by_cases hvalue : ∃ id : Key, value = some id.val
  · obtain ⟨id, rfl⟩ := hvalue
    have hone := ho.recorded_le_one id
    rw [Db.recorded, find, ← List.countP_eq_length_filter] at hone
    rw [List.count, List.countP_map]
    refine le_trans (List.countP_mono_left fun d hd hcount => ?_) hone
    obtain ⟨id', hid'⟩ := hids d hd
    rw [holds_key hid' id]
    simp only [Function.comp_apply, hid', beq_iff_eq, Option.some.injEq] at hcount
    exact decide_eq_true (Subtype.ext hcount)
  · rw [List.count_eq_zero_of_not_mem]
    · exact Nat.zero_le _
    · intro hmem
      obtain ⟨d, hd, rfl⟩ := List.mem_map.mp hmem
      exact hvalue (hids d hd)

/-- Published events have scalar ids, and so do their records. -/
theorem Explained.scalar_ids {n : Nat} {s : State} (he : Explained s) (hb : Base n s) :
    ∀ d ∈ s.shared.db.processed_events, ∃ id : Key, d.get "event_id" = some id.val := by
  intro d hd
  obtain ⟨b, hbmem, hholds⟩ := he.published d hd
  obtain ⟨value, hitem, hget⟩ := hholds "event_id" List.mem_cons_self
  obtain ⟨id, rfl⟩ : ∃ id : Key, id.val = value :=
    ⟨⟨value, (hb.scalarIds b hbmem).event_id value hitem⟩, rfl⟩
  exact ⟨id, hget⟩

/-- **Replay in order.** However calls fail, processes die and messages are delivered again: one
consumer records each event once, and the views are the replay of recorded events, in the order of the
records. -/
theorem replayed_in_recorded_order {as : List Action} {s : State} (hadm : ∀ a ∈ as, a.admissible)
    (hrun : Runs.exec (step 1) State.init as = some s) :
    (s.shared.db.processed_events.map fun d => d.get "event_id").Nodup ∧
      ∃ ds bodies, List.Sublist ds s.shared.db.processed_events ∧ List.Forall₂ Holds ds bodies ∧
        ∀ v, v ≠ .processed_events →
          readModel s.shared.db v = ReadModel.run .empty (kinds bodies) v := by
  obtain ⟨hb, _, he⟩ := explained_exec hadm hrun
  obtain ⟨honce, hordered⟩ := ordered_exec hadm hrun
  obtain ⟨ds, hsub, hholds⟩ := hordered.matched
  exact ⟨nodup_recorded honce (he.scalar_ids hb), ds, _, hsub, hholds, he.replays⟩

/-- The update of a recorded event fails, and the event is never applied. -/
theorem replayed_in_recorded_order_lossy :
    ∃ s, Runs.exec (step 1) State.init lossyRun = some s ∧
      (s.shared.db.processed_events.map fun d => d.get "event_id").Nodup ∧
      ∃ ds bodies, List.Sublist ds s.shared.db.processed_events ∧ List.Forall₂ Holds ds bodies ∧
        ∀ v, v ≠ .processed_events →
          readModel s.shared.db v = ReadModel.run .empty (kinds bodies) v := by
  have hsome : (Runs.exec (step 1) State.init lossyRun).isSome = true := by decide
  obtain ⟨s, hs⟩ := Option.isSome_iff_exists.mp hsome
  have hadm : ∀ a ∈ lossyRun, a.admissible := by
    simp [lossyRun, Action.admissible, scalarIds_postCreated]
  exact ⟨s, hs, replayed_in_recorded_order hadm hs⟩

/-! ## An emptied queue -/

/-- The updates applied are of distinct events. -/
theorem Once.nodup_applied {n : Nat} {s : State} (ho : Once s) (hb : Base n s) :
    s.shared.applied.Nodup := by
  rw [List.nodup_iff_count_le_one]
  intro b
  by_cases hmem : b ∈ s.shared.applied
  · obtain ⟨x, hx, rfl⟩ := List.mem_map.mp hmem
    obtain ⟨id, hid⟩ := Option.isSome_iff_exists.mp (hb.executed x (List.mem_of_mem_filter hx)).2
    refine le_trans ?_ (ho.executed_le_one id)
    rw [List.count, World.applied, List.countP_map, List.countP_filter]
    refine List.countP_mono_left fun y _ hy => ?_
    rw [Bool.and_eq_true, Function.comp_apply, beq_iff_eq] at hy
    rw [hy.1]
    exact decide_eq_true hid
  · rw [List.count_eq_zero_of_not_mem hmem]
    exact Nat.zero_le _

theorem mem_applied {w : World} {b : Body} : b ∈ w.applied ↔ Projected w b := by
  unfold World.applied Projected
  rw [List.mem_map]
  constructor
  · rintro ⟨⟨body, applied⟩, hx, rfl⟩
    obtain ⟨hmem, happlied⟩ := List.mem_filter.mp hx
    have htrue : applied = true := happlied
    subst htrue
    exact hmem
  · intro hmem
    exact ⟨⟨b, true⟩, List.mem_filter.mpr ⟨hmem, rfl⟩, rfl⟩

/-- The updates that took effect for a counter are those applied to its events. -/
theorem appliedFor_eq (w : World) (c : Counter) (key : Key) :
    appliedFor w.executed c key = (w.applied.filter fun b => b.counted c key).length := by
  rw [appliedFor, World.applied, ← List.countP_eq_length_filter, List.countP_map,
    List.countP_filter]
  refine List.countP_congr fun x _ => ?_
  rw [Function.comp_apply, Bool.and_comm]

/-- If every published event is projected, every record is of an applied update. -/
theorem length_records_le {s : State} (hb : Base 1 s) (he : Explained s) (ho : Once s)
    (hall : ∀ b ∈ s.shared.bodies, b ∈ s.shared.applied) :
    s.shared.db.processed_events.length ≤ s.shared.applied.length := by
  have hsub : (s.shared.db.processed_events.map fun d => d.get "event_id") ⊆
      s.shared.applied.map fun b => item? b.value "event_id" := by
    intro value hvalue
    obtain ⟨d, hd, rfl⟩ := List.mem_map.mp hvalue
    obtain ⟨b, hbmem, hholds⟩ := he.published d hd
    obtain ⟨value, hitem, hget⟩ := hholds "event_id" List.mem_cons_self
    rw [hget, ← hitem]
    exact List.mem_map_of_mem (hall b hbmem)
  have hle := (List.subperm_of_subset (nodup_recorded ho (he.scalar_ids hb)) hsub).length_le
  rwa [List.length_map, List.length_map] at hle

end SocialNetwork.EventService

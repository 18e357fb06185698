import SocialNetwork.EventService.DeduplicationTheorems

/-!
# From acknowledgement to projection

An event is recorded before it is projected, and the duplicate path acknowledges whatever is
recorded. `LossFree` is the condition under which that is right: nothing fails between the
record and the projection, and an event id names one event. `Settled` is the invariant of its
runs: a recorded event is projected or about to be, and a delivery that may be acknowledged is
of a projected event.
-/

namespace SocialNetwork.EventService

open DocStore

/-- The `update_one` of the event's branch has been applied. -/
def Projected (w : World) (b : Body) : Prop := ⟨b, true⟩ ∈ w.executed

instance (w : World) (b : Body) : Decidable (Projected w b) :=
  inferInstanceAs (Decidable (_ ∈ _))

/-- The step separates no record from its projection: no `insert_one` raises after it was
applied, no `update_one` raises without having been applied, no process dies between the two,
and no event is published under the id of a different one. -/
def LossFree (s : State) : Action → Prop
  | .publish b => ∀ b' ∈ s.shared.bodies, b'.event_id? = b.event_id? → b' = b
  | .call i ω => ∀ t ∈ s.tasks[i]?,
      (t.prog.head?.any Call.isInsert = true → ω ≠ .raises true) ∧
        (t.prog.head?.any Call.isUpdate = true → ω ≠ .raises false)
  | .crash i => ∀ t ∈ s.tasks[i]?, t.prog.head?.any Call.isUpdate = false
  | _ => True

instance (s : State) : (a : Action) → Decidable (LossFree s a)
  | .publish b =>
    inferInstanceAs (Decidable (∀ b' ∈ s.shared.bodies, b'.event_id? = b.event_id? → b' = b))
  | .call i ω =>
    inferInstanceAs (Decidable (∀ t ∈ s.tasks[i]?,
      (t.prog.head?.any Call.isInsert = true → ω ≠ .raises true) ∧
        (t.prog.head?.any Call.isUpdate = true → ω ≠ .raises false)))
  | .crash i =>
    inferInstanceAs (Decidable (∀ t ∈ s.tasks[i]?, t.prog.head?.any Call.isUpdate = false))
  | .deliver _ _ | .finish _ | .drop _ => isTrue trivial

/-- What may be published: a well-formed event. -/
def Action.wellFormed : Action → Prop
  | publish body => WellFormed body
  | _ => True

/-! ## The invariant -/

/-- The phases in which a callback takes its event for projected. -/
def Phase.knowsProjected (g : Phase) : Prop := g = duplicate ∨ g = projected

/-- What holds of one consumer whose steps are free of loss. -/
structure Settled (s : State) : Prop where
  wellFormed : ∀ b ∈ s.shared.bodies, WellFormed b
  distinct : ∀ b ∈ s.shared.bodies, ∀ b' ∈ s.shared.bodies, b.event_id? = b'.event_id? → b = b'
  recorded : ∀ id, s.shared.db.recorded id ≠ [] →
    (∃ b ∈ s.shared.bodies, b.event_id? = some id ∧ Projected s.shared b) ∨
      ∃ t ∈ s.tasks, About Call.isUpdate id t = true
  running : ∀ t ∈ s.tasks, ∃ g, t.prog.Obeys (monitor t.label.body) Ended g ∧
    (g.knowsProjected → Projected s.shared t.label.body)
  acked : ∀ m ∈ s.shared.messages, m.status = .acked → Projected s.shared m.body

theorem settled_init : Settled State.init where
  wellFormed _ hb := by cases hb
  distinct _ hb := by cases hb
  recorded _ hne := absurd rfl hne
  running _ ht := by cases ht
  acked _ hm := by cases hm

/-! ## The queue -/

/-- A message that a requeue leaves acknowledged was acknowledged before. -/
theorem mem_requeue_acked {proc : Nat} {ms : List Message} {m : Message}
    (h : m ∈ requeue proc ms) (hm : m.status = .acked) : m ∈ ms := by
  obtain ⟨m', hm', he⟩ := List.mem_map.mp h
  split_ifs at he
  · rw [← he] at hm
    cases hm
  · exact he ▸ hm'

/-- A message that a delivery settles as acknowledged is its own, or it was so before. -/
theorem mem_settle_acked {l : Delivery} {st : Status} {ms : List Message} {m : Message}
    (h : m ∈ settle l st ms) (hm : m.status = .acked) :
    m ∈ ms ∨ (st = .acked ∧ ∃ m', ms[l.tag]? = some m' ∧ m'.body = m.body) := by
  rcases Lists.mem_modify h with hold | ⟨m', hm', he⟩
  · exact .inl hold
  · split_ifs at he
    · rw [he] at hm
      exact .inr ⟨hm, m', hm', by rw [he]⟩
    · exact .inl (he ▸ List.mem_of_getElem? hm')

/-! ## What a call does to the invariant -/

theorem Projected.mono {w w' : World} {b : Body} (h : Projected w b)
    (hx : w.executed <+: w'.executed) : Projected w' b :=
  hx.subset h

section Effect

variable {l : Delivery} {w w' : World} {c : Call} {ω : Outcome} {g g' : Phase}

/-- A new record is followed by the projection of its event. -/
theorem Effect.recorded_of_new (h : Effect l w c ω g w' g')
    (hω : c.isInsert = true → ω ≠ .raises true) {id : Key} (hr : w'.db.recorded id ≠ []) :
    w.db.recorded id ≠ [] ∨ (l.body.event_id? = some id ∧ g' = .recorded) := by
  cases h with
  | @record doc _ id' hok hid hdoc =>
    rcases hok with rfl | rfl
    · rw [recorded_append _ _ hdoc] at hr
      by_cases he : id' = id
      · exact .inr ⟨he ▸ hid, rfl⟩
      · rw [if_neg he, List.append_nil] at hr
        exact .inl hr
    · exact absurd rfl (hω rfl)
  | @project _ _ _ _ _ _ k db _ _ _ hdb =>
    have hp := k.processed_events_call w.db
    rw [hdb] at hp
    rw [Db.recorded, hp] at hr
    exact .inl hr
  | _ => exact .inl hr

/-- An `update_one` that does not raise for nothing projects the event. -/
theorem Effect.projected_of_update (h : Effect l w c ω g w' g') (hc : c.isUpdate = true)
    (hω : ω ≠ .raises false) : Projected w' l.body := by
  cases h with
  | project _ _ _ _ => exact List.mem_append_right _ (List.mem_singleton_self _)
  | miscarry _ _ => exact absurd rfl hω
  | fault hne =>
    cases c with
    | update_one coll filter update upsert => exact absurd rfl (hne _ _ _ _)
    | _ => cases hc
  | _ => cases hc

/-- A callback knows its event to be projected after it found it, or projected it. -/
theorem Effect.knowsProjected (h : Effect l w c ω g w' g') (hg : g'.knowsProjected) :
    c.isUpdate = true ∨
      (c.isFind = true ∧ ∃ id, l.body.event_id? = some id ∧ w.db.recorded id ≠ []) := by
  cases h with
  | hit hid hr => exact .inr ⟨rfl, _, hid, hr⟩
  | project _ _ _ _ => exact .inl rfl
  | miss _ _ => rcases hg with hg | hg <;> cases hg
  | record hok _ _ => rcases hok with rfl | rfl <;> rcases hg with hg | hg <;> cases hg
  | miscarry _ _ => exact .inl rfl
  | ack hok _ => rcases hok with rfl | rfl <;> rcases hg with hg | hg <;> cases hg
  | nack hok => rcases hok with rfl | rfl <;> rcases hg with hg | hg <;> cases hg
  | unread => rcases hg with hg | hg <;> cases hg
  | fault _ => rcases hg with hg | hg <;> cases hg

/-- A message is acknowledged by a callback that may acknowledge it. -/
theorem Effect.acked_of_new (h : Effect l w c ω g w' g') {m : Message} (hm : m ∈ w'.messages)
    (hst : m.status = .acked) :
    m ∈ w.messages ∨ (g.done l.body ∧ ∃ m', w.messages[l.tag]? = some m' ∧ m'.body = m.body) := by
  cases h with
  | ack _ hg =>
    rcases mem_settle_acked hm hst with hold | ⟨-, hnew⟩
    · exact .inl hold
    · exact .inr ⟨hg, hnew⟩
  | nack _ =>
    rcases mem_settle_acked hm hst with hold | ⟨hready, -⟩
    · exact .inl hold
    · cases hready
  | _ => exact .inl hm

end Effect

/-- A callback that has recorded a well-formed event is about to project it. -/
theorem about_update_of_recorded {t : Task} (hw : WellFormed t.label.body)
    (hs : ScalarIds t.label.body) {id : Key} (hid : t.label.body.event_id? = some id)
    (hp : t.prog.Obeys (monitor t.label.body) Ended .recorded) :
    About Call.isUpdate id t = true := by
  rw [About, decide_eq_true hid, Bool.true_and]
  cases hprog : t.prog with
  | ret a =>
    rw [hprog] at hp
    rcases hp with hp | hp <;> cases hp
  | raise e =>
    rw [hprog] at hp
    rcases hp with hp | hp <;> cases hp
  | call c k =>
    rw [hprog, Prog.obeys_call] at hp
    cases c with
    | update_one coll filter update upsert => rfl
    | find_one coll filter => cases hp.1.1
    | insert_one coll doc => cases hp.1.1
    | basic_ack =>
      -- the phase is acknowledged only if the event has no branch
      have hnone : t.label.body.kind? = none := hp.1
      have hsome := hw.isSome_kind? hs
      rw [hnone] at hsome
      cases hsome
    | basic_nack requeue =>
      rcases hp.1.2 with hfail | hill
      · cases hfail
      · exact absurd hw hill

/-- A callback that finds its event recorded is right to take it for projected: with one
consumer, nobody else is between the record and the projection. -/
theorem Settled.projected_of_recorded {s : State} (hs : Settled s) (hb : Base 1 s) {t : Task}
    (ht : t ∈ s.tasks) (hfind : t.prog.head?.any Call.isFind = true) {id : Key}
    (hid : t.label.body.event_id? = some id) (hr : s.shared.db.recorded id ≠ []) :
    Projected s.shared t.label.body := by
  have hbody : t.label.body ∈ s.shared.bodies :=
    List.mem_of_getElem? (hb.placed t.label (List.mem_map_of_mem ht)).tag
  rcases hs.recorded id hr with ⟨b, hbmem, hbid, hproj⟩ | ⟨u, hu, hupd⟩
  · rw [hs.distinct _ hbody b hbmem (hid.trans hbid.symm)]
    exact hproj
  · -- the callback about to update would be this one, which is about to find
    rw [hb.tasks_of_one hu ht, About, Bool.and_eq_true] at hupd
    rw [Option.any_eq_true] at hfind
    obtain ⟨c, hc, hf⟩ := hfind
    rw [hc, Option.any_some] at hupd
    cases c with
    | find_one coll filter => cases hupd.2
    | _ => cases hf

/-- The invariant is kept by the calls of the callback. -/
theorem Settled.call {s : State} {i : Nat} {ω : Outcome} {l₁ l₂ : List Task} {t : Task}
    {c : Call} {g g' : Phase} {w : World} {p : Py Unit} (hs : Settled s) (hb : Base 1 s)
    (hi : s.tasks[i]? = some t) (hsplit : s.tasks = l₁ ++ t :: l₂) (hc : t.prog.head? = some c)
    (he : Effect t.label s.shared c ω g w g')
    (hg : g.done t.label.body → Projected s.shared t.label.body)
    (hp : p.Obeys (monitor t.label.body) Ended g') (ha : LossFree s (.call i ω)) :
    Settled ⟨w, l₁ ++ { t with prog := p } :: l₂⟩ := by
  have ht : t ∈ s.tasks := List.mem_of_getElem? hi
  have hplaced := hb.placed t.label (List.mem_map_of_mem ht)
  have hbody : t.label.body ∈ s.shared.bodies := List.mem_of_getElem? hplaced.tag
  have hbodies : w.bodies = s.shared.bodies := he.frame.1
  have hmono := he.executed_mono
  have hfree := ha t hi
  rw [hc, Option.any_some, Option.any_some] at hfree
  have hin : ∀ u ∈ l₁ ++ { t with prog := p } :: l₂, u ∈ s.tasks ∨ u = { t with prog := p } := by
    intro u hu
    rw [hsplit]
    simp only [List.mem_append, List.mem_cons] at hu ⊢
    tauto
  refine ⟨?_, ?_, ?_, ?_, ?_⟩
  · rw [hbodies]
    exact hs.wellFormed
  · rw [hbodies]
    exact hs.distinct
  · intro id hr
    rcases he.recorded_of_new hfree.1 hr with hold | ⟨hid, hrec⟩
    · rcases hs.recorded id hold with ⟨b, hbmem, hbid, hproj⟩ | ⟨u, hu, hupd⟩
      · left
        rw [hbodies]
        exact ⟨b, hbmem, hbid, hproj.mono hmono⟩
      · -- the callback about to update is this one, and its call is the update
        left
        rw [hb.tasks_of_one hu ht, About, hc, Bool.and_eq_true, Option.any_some,
          decide_eq_true_eq] at hupd
        rw [hbodies]
        exact ⟨_, hbody, hupd.1, he.projected_of_update hupd.2 (hfree.2 hupd.2)⟩
    · right
      subst hrec
      refine ⟨{ t with prog := p }, List.mem_append_right _ (List.mem_cons_self ..), ?_⟩
      exact about_update_of_recorded (t := { t with prog := p }) (hs.wellFormed _ hbody)
        (hb.scalarIds _ hbody) hid hp
  · intro u hu
    by_cases hut : u = { t with prog := p }
    · rw [hut]
      refine ⟨g', hp, fun hknows => ?_⟩
      rcases he.knowsProjected hknows with hupd | ⟨hfind, id, hid, hr⟩
      · exact he.projected_of_update hupd (hfree.2 hupd)
      · refine (hs.projected_of_recorded hb ht ?_ hid hr).mono hmono
        rw [hc]
        exact hfind
    · have hold : u ∈ s.tasks := (hin u hu).resolve_right hut
      obtain ⟨gu, hpu, hknows⟩ := hs.running u hold
      exact ⟨gu, hpu, fun hk => (hknows hk).mono hmono⟩
  · intro m hm hst
    rcases he.acked_of_new hm hst with hold | ⟨hdone, m', hm', hbm⟩
    · exact (hs.acked m hold hst).mono hmono
    · have htag := hplaced.tag
      rw [World.bodies, List.getElem?_map, hm', Option.map_some, Option.some.injEq, hbm] at htag
      rw [htag]
      exact (hg hdone).mono hmono

/-- Callbacks leave, and messages become ready: nothing is lost by it as long as no callback
leaves that is about to project. -/
theorem Settled.leave {s s' : State} (hs : Settled s) (hdb : s'.shared.db = s.shared.db)
    (hx : s'.shared.executed = s.shared.executed) (hbodies : s'.shared.bodies = s.shared.bodies)
    (htasks : s'.tasks ⊆ s.tasks)
    (hkept : ∀ id, ∀ t ∈ s.tasks, About Call.isUpdate id t = true → t ∈ s'.tasks)
    (hacked : ∀ m ∈ s'.shared.messages, m.status = .acked → m ∈ s.shared.messages) :
    Settled s' := by
  have hproj : ∀ b, Projected s'.shared b ↔ Projected s.shared b := by
    intro b
    rw [Projected, Projected, hx]
  refine ⟨?_, ?_, ?_, ?_, ?_⟩
  · rw [hbodies]
    exact hs.wellFormed
  · rw [hbodies]
    exact hs.distinct
  · intro id hr
    rw [hdb] at hr
    rw [hbodies]
    rcases hs.recorded id hr with ⟨b, hb, hid, hp⟩ | ⟨t, ht, hupd⟩
    · exact .inl ⟨b, hb, hid, (hproj b).mpr hp⟩
    · exact .inr ⟨t, hkept id t ht hupd, hupd⟩
  · intro t ht
    obtain ⟨g, hg, hk⟩ := hs.running t (htasks ht)
    exact ⟨g, hg, fun hknows => (hproj _).mpr (hk hknows)⟩
  · intro m hm hst
    exact (hproj _).mpr (hs.acked m (hacked m hm hst) hst)

/-- The invariant is kept by every step of one consumer that is free of loss. -/
theorem Settled.step {s s' : State} {a : Action} (hs : Settled s) (hb : Base 1 s)
    (hw : a.wellFormed) (ha : LossFree s a) (h : step 1 s a = some s') : Settled s' := by
  cases move_of_step hb h with
  | publish b =>
    have hbodies : ({ s.shared with
        messages := s.shared.messages ++ [⟨b, .ready⟩] } : World).bodies =
          s.shared.bodies ++ [b] := by
      rw [World.bodies, List.map_append, List.map_singleton, World.bodies]
    refine ⟨?_, ?_, ?_, hs.running, ?_⟩
    · intro x hx
      rw [hbodies, List.mem_append, List.mem_singleton] at hx
      rcases hx with hx | rfl
      · exact hs.wellFormed x hx
      · exact hw
    · intro x hx y hy hxy
      rw [hbodies, List.mem_append, List.mem_singleton] at hx hy
      rcases hx with hx | rfl
      · rcases hy with hy | rfl
        · exact hs.distinct x hx y hy hxy
        · exact ha x hx hxy
      · rcases hy with hy | rfl
        · exact (ha y hy hxy.symm).symm
        · rfl
    · intro id hr
      rcases hs.recorded id hr with ⟨x, hx, hid, hp⟩ | hupd
      · refine .inl ⟨x, ?_, hid, hp⟩
        rw [hbodies]
        exact List.mem_append_left _ hx
      · exact .inr hupd
    · intro m hm hst
      rcases List.mem_append.mp hm with hm | hm
      · exact hs.acked m hm hst
      · rw [List.mem_singleton.mp hm] at hst
        cases hst
  | @deliver proc tag m hm hready hproc hidle =>
    have hbodies : (s.shared.messages.modify tag fun m => { m with status := .unacked proc }).map
        (·.body) = s.shared.bodies :=
      Lists.map_modify (f := fun m : Message => { m with status := .unacked proc }) (fun _ => rfl) tag _
    have hmem : m.body ∈ s.shared.bodies := by
      rw [World.bodies]
      exact List.mem_map_of_mem (List.mem_of_getElem? hm)
    refine ⟨?_, ?_, ?_, ?_, ?_⟩
    · rw [World.bodies, hbodies]
      exact hs.wellFormed
    · rw [World.bodies, hbodies]
      exact hs.distinct
    · intro id hr
      rw [World.bodies, hbodies]
      rcases hs.recorded id hr with hp | ⟨t, ht, hupd⟩
      · exact .inl hp
      · exact .inr ⟨t, List.mem_append_left _ ht, hupd⟩
    · intro t ht
      rcases List.mem_append.mp ht with ht | ht
      · exact hs.running t ht
      · rw [List.mem_singleton.mp ht]
        refine ⟨.start, callback_obeys (hb.scalarIds _ hmem), fun hknows => ?_⟩
        rcases hknows with hk | hk <;> cases hk
    · intro x hx hst
      rcases Lists.mem_modify hx with hold | ⟨y, -, hxy⟩
      · exact hs.acked x hold hst
      · rw [hxy] at hst
        cases hst
  | @call i ω l₁ l₂ t c w p hi hsplit hc hcall =>
    have ht : t ∈ s.tasks := List.mem_of_getElem? hi
    obtain ⟨g, hg, hknows⟩ := hs.running t ht
    obtain ⟨g', he, hp⟩ := hcall g hg
    refine hs.call hb hi hsplit hc he (fun hdone => ?_) hp ha
    cases g with
    | duplicate => exact hknows (.inl rfl)
    | projected => exact hknows (.inr rfl)
    | recorded =>
      -- a well-formed event has a branch
      have hbody := List.mem_of_getElem? (hb.placed t.label (List.mem_map_of_mem ht)).tag
      have hnone : t.label.body.kind? = none := hdone
      have hsome := (hs.wellFormed _ hbody).isSome_kind? (hb.scalarIds _ hbody)
      rw [hnone] at hsome
      cases hsome
    | start => cases hdone
    | absent => cases hdone
    | failed => cases hdone
    | settled => cases hdone
  | @leave _ i l₁ l₂ t ms hact hi hsplit hms hfin =>
    -- the callback that leaves has ended, or dies elsewhere than before its update
    have hnot : ∀ id, About Call.isUpdate id t = false := by
      intro id
      rcases hact with rfl | rfl
      · obtain ⟨r, hr⟩ := hfin rfl
        have hhead : t.prog.head? = none := by
          cases hprog : t.prog with
          | call c k =>
            rw [hprog] at hr
            cases hr
          | _ => rfl
        rw [About, hhead, Option.any_none, Bool.and_false]
      · rw [About, ha t hi, Bool.and_false]
    refine hs.leave rfl rfl ?_ ?_ ?_ ?_
    · rcases hms with rfl | rfl
      · rfl
      · exact requeue_bodies _ _
    · intro u hu
      rw [hsplit]
      simp only [List.mem_append, List.mem_cons] at hu ⊢
      tauto
    · intro id u hu hupd
      rw [hsplit] at hu
      simp only [List.mem_append, List.mem_cons] at hu ⊢
      rcases hu with hu | rfl | hu
      · exact .inl hu
      · rw [hnot id] at hupd
        cases hupd
      · exact .inr hu
    · intro m hm hst
      rcases hms with rfl | rfl
      · exact hm
      · exact mem_requeue_acked hm hst
  | drop proc =>
    exact hs.leave rfl rfl (requeue_bodies _ _) (List.Subset.refl _) (fun _ _ ht _ => ht)
      fun _ hm hst => mem_requeue_acked hm hst

/-! ## Over whole runs -/

/-- What every run of one consumer keeps that is free of loss. -/
theorem settled_exec {as : List Action} {s : State} (hw : ∀ a ∈ as, a.wellFormed)
    (hadm : ∀ a ∈ as, a.admissible) (ha : Runs.Meets (step 1) LossFree State.init as)
    (hrun : Runs.exec (step 1) State.init as = some s) : Base 1 s ∧ Settled s :=
  Runs.exec_invariant (I := fun s => Base 1 s ∧ Settled s)
    (fun _ _ _ hs hok hstep => ⟨hs.1.step hok.1.2 hstep, hs.2.step hs.1 hok.1.1 hok.2 hstep⟩)
    ⟨base_init 1, settled_init⟩
    (((Runs.meets_of_mem hw _).and (Runs.meets_of_mem hadm _)).and ha) hrun

/-- **No lost projection.** In every run of one consumer over well-formed events whose ids are
scalars, and that is free of loss, the update of every acknowledged event has been applied. -/
theorem acked_events_projected {as : List Action} {s : State} (hw : ∀ a ∈ as, a.wellFormed)
    (hadm : ∀ a ∈ as, a.admissible) (ha : Runs.Meets (step 1) LossFree State.init as)
    (hrun : Runs.exec (step 1) State.init as = some s) :
    ∀ m ∈ s.shared.messages, m.status = .acked → Projected s.shared m.body := by
  obtain ⟨-, hsettled⟩ := settled_exec hw hadm ha hrun
  exact hsettled.acked

/-- Acknowledging raises after the event was projected; it is delivered again as a duplicate. -/
def faultyAckRun : List Action :=
  [.publish (postCreated "e-1" "u-1"), .deliver 0 0, .call 0 .ok, .call 0 .ok,
    .call 0 (.raises true), .call 0 .ok, .finish 0, .deliver 0 0, .call 0 .ok, .call 0 .ok]

theorem acked_events_projected_faultyAck :
    ∃ s, Runs.exec (step 1) State.init faultyAckRun = some s ∧
      ∀ m ∈ s.shared.messages, m.status = .acked → Projected s.shared m.body := by
  have hsome : (Runs.exec (step 1) State.init faultyAckRun).isSome = true := by decide
  obtain ⟨s, hs⟩ := Option.isSome_iff_exists.mp hsome
  have hw : ∀ a ∈ faultyAckRun, a.wellFormed := by
    simp [faultyAckRun, Action.wellFormed, wellFormed_postCreated]
  have hadm : ∀ a ∈ faultyAckRun, a.admissible := by
    simp [faultyAckRun, Action.admissible, scalarIds_postCreated]
  exact ⟨s, hs, acked_events_projected hw hadm (by decide) hs⟩

/-- The `update_one` raises; the event is delivered again, found and acknowledged. -/
def lossyRun : List Action :=
  [.publish (postCreated "e-1" "u-1"), .deliver 0 0, .call 0 .ok, .call 0 .ok,
    .call 0 (.raises false), .call 0 .ok, .finish 0, .deliver 0 0, .call 0 .ok, .call 0 .ok]

/-- The post is acknowledged and never counted. -/
theorem lossyRun_loses :
    (∀ a ∈ lossyRun, a.wellFormed) ∧
      ∃ s, Runs.exec (step 1) State.init lossyRun = some s ∧
        (∃ m ∈ s.shared.messages, m.status = .acked ∧ ¬ Projected s.shared m.body) ∧
        readModel s.shared.db .user_activity_view "u-1" = none := by
  refine ⟨?_, ?_⟩
  · simp [lossyRun, Action.wellFormed, wellFormed_postCreated]
  · have hrun : (Runs.exec (step 1) State.init lossyRun).map (fun s =>
        (decide (∃ m ∈ s.shared.messages, m.status = .acked ∧ ¬ Projected s.shared m.body),
          (readModel s.shared.db .user_activity_view "u-1").isNone)) = some (true, true) := by
      decide
    obtain ⟨s, hs, he⟩ := Option.map_eq_some_iff.mp hrun
    simp only [Prod.mk.injEq, decide_eq_true_eq, Option.isNone_iff_eq_none] at he
    exact ⟨s, hs, he⟩

end SocialNetwork.EventService

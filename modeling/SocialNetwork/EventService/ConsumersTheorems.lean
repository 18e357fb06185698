import SocialNetwork.Lib.Lists
import SocialNetwork.EventService.Consumers

/-!
# The base invariant of the consumers

`move_of_step` is the inversion lemma of the system: a step is one of five moves, and the call
of a running callback is one its protocol allows. `Base` is what holds whatever fails and however
the processes interleave: the views are well formed, every running callback keeps to its
protocol, and each counter is the number of `update_one` calls that took effect for it.
-/

namespace SocialNetwork.EventService

open DocStore

/-! ## The queue -/

/-- The published bodies, in order. -/
def World.bodies (w : World) : List Body := w.messages.map (·.body)

theorem settle_bodies (l : Delivery) (st : Status) (ms : List Message) :
    (settle l st ms).map (·.body) = ms.map (·.body) :=
  Lists.map_modify (fun m => by split_ifs <;> rfl) l.tag ms

theorem requeue_bodies (proc : Nat) (ms : List Message) :
    (requeue proc ms).map (·.body) = ms.map (·.body) := by
  rw [requeue, List.map_map]
  refine List.map_congr_left fun m _ => ?_
  simp only [Function.comp_apply]
  split_ifs <;> rfl

/-! ## What a step does -/

/-- The effect of a call on the bodies, the deliveries and the updates executed. -/
theorem Effect.frame {l : Delivery} {w w' : World} {c : Call} {ω : Outcome} {g g' : Phase}
    (h : Effect l w c ω g w' g') : w'.bodies = w.bodies ∧ w'.delivered = w.delivered := by
  cases h with
  | ack _ _ => exact ⟨settle_bodies l _ _, rfl⟩
  | nack _ => exact ⟨settle_bodies l _ _, rfl⟩
  | _ => exact ⟨rfl, rfl⟩

/-- The steps of the system, with the running callbacks seen through their protocol. -/
inductive Move (n : Nat) (s : State) : Action → State → Prop
  | publish (b : Body) :
    Move n s (.publish b)
      { s with shared := { s.shared with messages := s.shared.messages ++ [⟨b, .ready⟩] } }
  | deliver {proc tag : Nat} {m : Message} (hm : s.shared.messages[tag]? = some m)
    (hready : m.status = .ready) (hproc : proc < n)
    (hidle : ∀ t ∈ s.tasks, t.label.proc ≠ proc) :
    Move n s (.deliver proc tag)
      ⟨{ s.shared with
          messages := s.shared.messages.modify tag fun m => { m with status := .unacked proc }
          delivered := s.shared.delivered ++ [m.body] },
        s.tasks ++ [⟨⟨proc, tag, m.body⟩, callback m.body, ()⟩]⟩
  | call {i : Nat} {ω : Outcome} {l₁ l₂ : List Task} {t : Task} {c : Call} {w : World}
    {p : Py Unit} (hi : s.tasks[i]? = some t) (hs : s.tasks = l₁ ++ t :: l₂)
    (hc : t.prog.head? = some c)
    (he : ∀ g, t.prog.Obeys (monitor t.label.body) Ended g →
      ∃ g', Effect t.label s.shared c ω g w g' ∧ p.Obeys (monitor t.label.body) Ended g') :
    Move n s (.call i ω) ⟨w, l₁ ++ { t with prog := p } :: l₂⟩
  | leave {a : Action} {i : Nat} {l₁ l₂ : List Task} {t : Task} {ms : List Message}
    (ha : a = .finish i ∨ a = .crash i) (hi : s.tasks[i]? = some t)
    (hs : s.tasks = l₁ ++ t :: l₂)
    (hms : ms = s.shared.messages ∨ ms = requeue t.label.proc s.shared.messages)
    (hfin : a = .finish i → ∃ r, Pool.outcome t.prog = some r) :
    Move n s a ⟨{ s.shared with messages := ms }, l₁ ++ l₂⟩
  | drop (proc : Nat) :
    Move n s (.drop proc)
      { s with shared := { s.shared with messages := requeue proc s.shared.messages } }

/-- What a body is counted by. -/
def Body.counted (b : Body) (c : Counter) (key : Key) : Bool :=
  match b.kind? with
  | some k => c.counts key k
  | none => false

/-- How many of the executed updates took effect for a counter. -/
def appliedFor (executed : List Executed) (c : Counter) (key : Key) : Nat :=
  executed.countP fun x => x.applied && x.body.counted c key

/-- The deliveries that are being handled. -/
def labels (s : State) : List Delivery := s.tasks.map (·.label)

/-- A delivery names a process and a message of the system. -/
structure Placed (n : Nat) (w : World) (l : Delivery) : Prop where
  proc_lt : l.proc < n
  tag : w.bodies[l.tag]? = some l.body
  delivered : l.body ∈ w.delivered

/-- What holds in every reachable state. -/
structure Base (n : Nat) (s : State) : Prop where
  views : Views s.shared.db
  scalarIds : ∀ b ∈ s.shared.bodies, ScalarIds b
  obeys : ∀ t ∈ s.tasks, ∃ g, t.prog.Obeys (monitor t.label.body) Ended g
  procs : ((labels s).map (·.proc)).Nodup
  placed : ∀ l ∈ labels s, Placed n s.shared l
  published : ∀ b ∈ s.shared.delivered, b ∈ s.shared.bodies
  executed : ∀ x ∈ s.shared.executed, x.body ∈ s.shared.delivered ∧ x.body.event_id?.isSome
  counters : ∀ c key,
    (readModel s.shared.db).counter c key = appliedFor s.shared.executed c key

/-- **Inversion.** Under the base invariant a step is one of the moves. -/
theorem move_of_step {n : Nat} {s s' : State} {a : Action} (hb : Base n s)
    (h : step n s a = some s') : Move n s a s' := by
  cases a with
  | publish b =>
    cases h
    exact .publish b
  | deliver proc tag =>
    simp only [step] at h
    split at h
    · cases h
    · next m hm =>
      split at h
      · next hg =>
        cases h
        exact .deliver hm hg.1 hg.2.1 hg.2.2
      · cases h
  | call i ω =>
    obtain ⟨w', ts'⟩ := s'
    obtain ⟨l₁, t, l₂, c, k, r, hi, hs, hp, he, hs'⟩ := Pool.advance_atomic h
    dsimp only at hs'
    rw [hs']
    refine .call hi hs (by rw [hp]; rfl) fun g hg => ?_
    rw [hp, Prog.obeys_call] at hg
    exact ⟨Phase.after c r, effect_of_allows hb.views hg.1 he, hg.2 r⟩
  | finish i =>
    simp only [step] at h
    split at h
    · cases h
    · next l r s₁ hr =>
      cases h
      obtain ⟨l₁, t, l₂, hi, hs, -, ho, rfl⟩ := Pool.retire_eq_some hr
      exact .leave (.inl rfl) hi hs (.inl rfl) fun _ => ⟨_, ho⟩
    · next l e s₁ hr =>
      cases h
      obtain ⟨l₁, t, l₂, hi, hs, rfl, ho, rfl⟩ := Pool.retire_eq_some hr
      -- a callback that raises ends its process, and its messages are requeued
      exact .leave (.inl rfl) hi hs (.inr rfl) fun _ => ⟨_, ho⟩
  | crash i =>
    simp only [step] at h
    split at h
    · cases h
    · next t hi =>
      cases h
      obtain ⟨l₁, l₂, hs, her, -⟩ := Pool.split_getElem? hi
      rw [her]
      exact .leave (.inr rfl) hi hs (.inr rfl) fun hc => by cases hc
  | drop proc =>
    cases h
    exact .drop proc

/-! ## The base invariant -/

theorem base_init (n : Nat) : Base n State.init where
  views := views_empty
  scalarIds _ hb := by cases hb
  obeys _ ht := by cases ht
  procs := List.nodup_nil
  placed _ hl := by cases hl
  published _ hb := by cases hb
  executed _ hx := by cases hx
  counters c key := by cases c <;> rfl

/-- A step adds to the executed updates. -/
theorem Effect.executed_mono {l : Delivery} {w w' : World} {c : Call} {ω : Outcome}
    {g g' : Phase} (h : Effect l w c ω g w' g') : w.executed <+: w'.executed := by
  cases h with
  | project _ _ _ _ => exact List.prefix_append _ _
  | miscarry _ _ => exact List.prefix_append _ _
  | _ => exact List.prefix_rfl

theorem Move.executed_mono {n : Nat} {s s' : State} {a : Action} (hb : Base n s)
    (h : Move n s a s') : s.shared.executed <+: s'.shared.executed := by
  cases h with
  | call hi _ _ hcall =>
    obtain ⟨g, hg⟩ := hb.obeys _ (List.mem_of_getElem? hi)
    obtain ⟨_, he, -⟩ := hcall g hg
    exact he.executed_mono
  | _ => exact List.prefix_rfl

theorem appliedFor_append (xs : List Executed) (x : Executed) (c : Counter) (key : Key) :
    appliedFor (xs ++ [x]) c key =
      appliedFor xs c key + if x.applied && x.body.counted c key then 1 else 0 := by
  rw [appliedFor, List.countP_append, List.countP_singleton, appliedFor]

/-- What a call of a delivery keeps of the base invariant. -/
theorem Effect.base {l : Delivery} {w w' : World} {c : Call} {ω : Outcome} {g g' : Phase}
    (h : Effect l w c ω g w' g') (hv : Views w.db) (hl : l.body ∈ w.delivered)
    (hx : ∀ x ∈ w.executed, x.body ∈ w.delivered ∧ x.body.event_id?.isSome)
    (hc : ∀ c key, (readModel w.db).counter c key = appliedFor w.executed c key) :
    Views w'.db ∧ (∀ x ∈ w'.executed, x.body ∈ w'.delivered ∧ x.body.event_id?.isSome) ∧
      ∀ c key, (readModel w'.db).counter c key = appliedFor w'.executed c key := by
  cases h with
  | record _ _ _ =>
    refine ⟨hv.record _, hx, fun c key => ?_⟩
    -- the counters live in the views, which the insert does not touch
    refine Eq.trans ?_ (hc c key)
    cases c <;> rfl
  | project _ hid hk hdb =>
    obtain ⟨db', hdb', hv', -, hm⟩ := hv.project (by assumption)
    cases hdb.symm.trans hdb'
    refine ⟨hv', fun x hx' => ?_, fun c key => ?_⟩
    · rcases List.mem_append.mp hx' with hx' | hx'
      · exact hx x hx'
      · rw [List.mem_singleton.mp hx']
        exact ⟨hl, Option.isSome_of_mem hid⟩
    · rw [appliedFor_append, hm, ReadModel.counter_step hv.counting_readModel, hc]
      simp only [Bool.true_and, Body.counted, hk]
      split_ifs <;> simp
  | miscarry hid _ =>
    refine ⟨hv, fun x hx' => ?_, fun c key => ?_⟩
    · rcases List.mem_append.mp hx' with hx' | hx'
      · exact hx x hx'
      · rw [List.mem_singleton.mp hx']
        exact ⟨hl, Option.isSome_of_mem hid⟩
    · rw [appliedFor_append, Bool.false_and, if_neg Bool.false_ne_true, Nat.add_zero]
      exact hc c key
  | _ => exact ⟨hv, hx, hc⟩

/-- More messages and more deliveries leave a delivery where it is. -/
theorem Placed.mono {n : Nat} {w w' : World} {l : Delivery} (h : Placed n w l)
    (hb : w.bodies <+: w'.bodies) (hd : w.delivered ⊆ w'.delivered) : Placed n w' l where
  proc_lt := h.proc_lt
  tag := by
    obtain ⟨bs, hbs⟩ := hb
    have hlt : l.tag < w.bodies.length := (List.getElem?_eq_some_iff.mp h.tag).1
    rw [← hbs, List.getElem?_append_left hlt]
    exact h.tag
  delivered := hd h.delivered

theorem labels_split {s : State} {l₁ l₂ : List Task} {t : Task} (hs : s.tasks = l₁ ++ t :: l₂) :
    labels s = l₁.map (·.label) ++ t.label :: l₂.map (·.label) := by
  rw [labels, hs, List.map_append, List.map_cons]

/-- The base invariant is kept by every admissible step. -/
theorem Base.step {n : Nat} {s s' : State} {a : Action} (hb : Base n s) (ha : a.admissible)
    (h : step n s a = some s') : Base n s' := by
  cases move_of_step hb h with
  | publish b =>
    have hbodies : ∀ w : World, w.messages = s.shared.messages ++ [⟨b, .ready⟩] →
        w.bodies = s.shared.bodies ++ [b] := by
      intro w hw
      rw [World.bodies, hw, List.map_append, List.map_singleton, World.bodies]
    have hbodies := hbodies { s.shared with messages := s.shared.messages ++ [⟨b, .ready⟩] } rfl
    refine { hb with scalarIds := ?_, placed := ?_, published := ?_ }
    · intro x hx
      rw [hbodies, List.mem_append, List.mem_singleton] at hx
      rcases hx with hx | rfl
      · exact hb.scalarIds x hx
      · exact ha
    · intro l hl
      exact (hb.placed l hl).mono ⟨[b], hbodies.symm⟩ (List.Subset.refl _)
    · intro x hx
      rw [hbodies]
      exact List.mem_append_left _ (hb.published x hx)
  | @deliver proc tag m hm hready hproc hidle =>
    have hbodies : (s.shared.messages.modify tag fun m => { m with status := .unacked proc }).map
        (·.body) = s.shared.bodies :=
      Lists.map_modify (f := fun m : Message => { m with status := .unacked proc }) (fun _ => rfl) tag _
    have htag : s.shared.bodies[tag]? = some m.body := by
      rw [World.bodies, List.getElem?_map, hm, Option.map_some]
    have hmem : m.body ∈ s.shared.bodies := List.mem_of_getElem? htag
    refine ⟨hb.views, ?_, ?_, ?_, ?_, ?_, ?_, hb.counters⟩
    · intro x hx
      rw [World.bodies, hbodies] at hx
      exact hb.scalarIds x hx
    · intro t ht
      rcases List.mem_append.mp ht with ht | ht
      · exact hb.obeys t ht
      · rw [List.mem_singleton.mp ht]
        exact ⟨.start, callback_obeys (hb.scalarIds _ hmem)⟩
    -- prefetch is 1: the consumer has no other delivery
    · rw [labels, List.map_append, List.map_append, List.nodup_append]
      refine ⟨hb.procs, List.pairwise_singleton _ _, ?_⟩
      intro p hp q hq hpq
      obtain ⟨l, hl, rfl⟩ := List.mem_map.mp hp
      obtain ⟨t, ht, rfl⟩ := List.mem_map.mp hl
      rw [List.map_singleton, List.map_singleton, List.mem_singleton] at hq
      exact hidle t ht (hpq.trans hq)
    · intro l hl
      rw [labels, List.map_append, List.mem_append] at hl
      rcases hl with hl | hl
      · refine (hb.placed l hl).mono ?_ (List.subset_append_left _ _)
        rw [World.bodies, World.bodies, hbodies]
        exact List.prefix_rfl
      · rw [List.map_singleton, List.mem_singleton] at hl
        subst hl
        refine ⟨hproc, ?_, List.mem_append_right _ (List.mem_singleton_self _)⟩
        rw [World.bodies, hbodies]
        exact htag
    · intro x hx
      rw [World.bodies, hbodies]
      rcases List.mem_append.mp hx with hx | hx
      · exact hb.published x hx
      · rw [List.mem_singleton.mp hx]
        exact hmem
    · intro x hx
      exact ⟨List.mem_append_left _ (hb.executed x hx).1, (hb.executed x hx).2⟩
  | @call i ω l₁ l₂ t c w p hi hs hc hcall =>
    obtain ⟨g, hg⟩ := hb.obeys t (List.mem_of_getElem? hi)
    obtain ⟨g', he, hp⟩ := hcall g hg
    have ht : t.label ∈ labels s := by
      rw [labels_split hs]
      exact List.mem_append_right _ (List.mem_cons_self ..)
    -- the task keeps its label, so only the world has changed
    have hlabels : labels ⟨w, l₁ ++ { t with prog := p } :: l₂⟩ = labels s :=
      (labels_split (t := { t with prog := p }) rfl).trans (labels_split hs).symm
    obtain ⟨hbodies, hdel⟩ := he.frame
    obtain ⟨hv, hx, hcount⟩ := he.base hb.views (hb.placed _ ht).delivered hb.executed hb.counters
    refine ⟨hv, ?_, ?_, ?_, ?_, ?_, hx, hcount⟩
    · rw [hbodies]
      exact hb.scalarIds
    · intro u hu
      rcases List.mem_append.mp hu with hu | hu
      · exact hb.obeys u (by rw [hs]; exact List.mem_append_left _ hu)
      · rcases List.mem_cons.mp hu with rfl | hu
        · exact ⟨g', hp⟩
        · exact hb.obeys u (by rw [hs]; exact List.mem_append_right _ (List.mem_cons_of_mem _ hu))
    · rw [hlabels]
      exact hb.procs
    · rw [hlabels]
      intro l hl
      refine (hb.placed l hl).mono ?_ ?_
      · exact hbodies ▸ List.prefix_rfl
      · rw [hdel]
        exact List.Subset.refl _
    · rw [hbodies, hdel]
      exact hb.published
  | @leave _ i l₁ l₂ t ms ha hi hs hms hfin =>
    have hbodies : ms.map (·.body) = s.shared.bodies := by
      rcases hms with rfl | rfl
      · rfl
      · exact requeue_bodies _ _
    have hsub : List.Sublist (labels ⟨{ s.shared with messages := ms }, l₁ ++ l₂⟩) (labels s) := by
      rw [labels_split hs, labels, List.map_append]
      exact (List.Sublist.refl _).append (List.sublist_cons_self ..)
    refine ⟨hb.views, ?_, ?_, ?_, ?_, ?_, hb.executed, hb.counters⟩
    · intro x hx
      rw [World.bodies, hbodies] at hx
      exact hb.scalarIds x hx
    · intro u hu
      refine hb.obeys u ?_
      rw [hs]
      rcases List.mem_append.mp hu with hu | hu
      · exact List.mem_append_left _ hu
      · exact List.mem_append_right _ (List.mem_cons_of_mem _ hu)
    · exact hb.procs.sublist (hsub.map _)
    · intro l hl
      refine (hb.placed l (hsub.subset hl)).mono ?_ (List.Subset.refl _)
      rw [World.bodies, World.bodies, hbodies]
      exact List.prefix_rfl
    · intro x hx
      rw [World.bodies, hbodies]
      exact hb.published x hx
  | drop proc =>
    have hbodies := requeue_bodies proc s.shared.messages
    refine { hb with scalarIds := ?_, placed := ?_, published := ?_ }
    · intro x hx
      rw [World.bodies, hbodies] at hx
      exact hb.scalarIds x hx
    · intro l hl
      refine (hb.placed l hl).mono ?_ (List.Subset.refl _)
      show s.shared.bodies <+: (requeue proc s.shared.messages).map fun x => x.body
      exact hbodies.symm ▸ List.prefix_refl s.shared.bodies
    · intro x hx
      rw [World.bodies, hbodies]
      exact hb.published x hx

/-- No step lowers a counter. -/
theorem Base.counter_le {n : Nat} {s s' : State} {a : Action} (hb : Base n s)
    (ha : a.admissible) (h : EventService.step n s a = some s') (c : Counter) (key : Key) :
    (readModel s.shared.db).counter c key ≤ (readModel s'.shared.db).counter c key := by
  have hle : appliedFor s.shared.executed c key ≤ appliedFor s'.shared.executed c key :=
    ((move_of_step hb h).executed_mono hb).sublist.countP_le
  rw [hb.counters, (hb.step ha h).counters]
  omega

end SocialNetwork.EventService

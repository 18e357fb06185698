import SocialNetwork.Lib.Lists
import SocialNetwork.EventService.Broker

/-!
# At least once, from publishing on

What is published is lost exactly when no binding of the consumer's queue matches it at that
moment: `none_lost_iff` says so for every run of producers and consumers. Once a consumer has
started, its four bindings take the five routing keys of the producer.
-/

namespace SocialNetwork.EventService

namespace Startup

/-! ## What is lost -/

/-- The `i`-th publication is in the consumer's queue, or unacknowledged, or acknowledged. -/
def Kept (w : Broker) (i : Nat) : Prop :=
  ∃ m ∈ w.messages, m.queue = QUEUE_NAME ∧ m.publication = i ∧ m.status ≠ .discarded

/-- Nothing published so far is lost. -/
def NoneLost (w : Broker) : Prop := ∀ i < w.published.length, Kept w i

/-- What is published now is taken by the consumer's queue. -/
def Bound (s : State) : Action → Prop
  | .call i _ => ∀ t ∈ s.tasks[i]?,
      match t.prog.head? with
      | some (.basic_publish exchange routing_key _ _ _) =>
        exchange ∈ s.shared.exchanges → QUEUE_NAME ∈ s.shared.targets exchange routing_key
      | _ => True
  | _ => True

/-- The queue and the publication of a message. -/
def place (m : Queued) : String × Nat := (m.queue, m.publication)

/-- What holds of the messages in every reachable state. -/
structure Numbered (w : Broker) : Prop where
  lt : ∀ m ∈ w.messages, m.publication < w.published.length
  live : ∀ m ∈ w.messages, m.status ≠ .discarded

theorem numbered_init : Numbered Broker.init where
  lt _ hm := by cases hm
  live _ hm := by cases hm

theorem kept_iff {w : Broker} (h : Numbered w) (i : Nat) :
    Kept w i ↔ (QUEUE_NAME, i) ∈ w.messages.map place := by
  rw [List.mem_map]
  constructor
  · rintro ⟨m, hm, hq, hp, -⟩
    exact ⟨m, hm, by rw [place, hq, hp]⟩
  · rintro ⟨m, hm, he⟩
    simp only [place, Prod.mk.injEq] at he
    exact ⟨m, hm, he.1, he.2, h.live m hm⟩

/-- Only the status of messages changes. -/
theorem numbered_congr {w w' : Broker} (h : Numbered w) (hp : w'.published = w.published)
    (hm : w'.messages.map place = w.messages.map place)
    (hlive : ∀ m ∈ w'.messages, m.status ≠ .discarded) :
    Numbered w' ∧ (NoneLost w' ↔ NoneLost w) := by
  have hnum : Numbered w' := by
    refine ⟨fun m hmem => ?_, hlive⟩
    have hplace : place m ∈ w.messages.map place := hm ▸ List.mem_map_of_mem hmem
    obtain ⟨x, hx, he⟩ := List.mem_map.mp hplace
    have hpub : x.publication = m.publication := congrArg Prod.snd he
    rw [← hpub, hp]
    exact h.lt x hx
  refine ⟨hnum, ?_⟩
  simp only [NoneLost, kept_iff hnum, kept_iff h, hp, hm]

/-- A message gets a status. -/
theorem numbered_setStatus {w : Broker} (h : Numbered w) (tag : Nat) {status : Status}
    (hst : status ≠ .discarded) :
    let w' := { w with messages := w.messages.modify tag fun m => { m with status := status } }
    Numbered w' ∧ (NoneLost w' ↔ NoneLost w) := by
  refine numbered_congr h rfl ?_ fun m hm => ?_
  · exact Lists.map_modify (f := fun m : Queued => { m with status := status }) (fun _ => rfl) tag _
  · rcases Lists.mem_modify hm with hold | ⟨y, -, rfl⟩
    · exact h.live m hold
    · exact hst

/-- The messages of a lost connection are ready again. -/
theorem numbered_disconnect {w : Broker} (h : Numbered w) (proc : Nat) :
    Numbered (w.disconnect proc) ∧ (NoneLost (w.disconnect proc) ↔ NoneLost w) := by
  refine numbered_congr h rfl ?_ fun m hm => ?_
  · rw [Broker.disconnect, List.map_map]
    refine List.map_congr_left fun m _ => ?_
    simp only [Function.comp_apply]
    split_ifs <;> rfl
  · obtain ⟨x, hx, rfl⟩ := List.mem_map.mp hm
    split_ifs
    · exact fun hd => by cases hd
    · exact h.live x hx

/-- A publication is kept just when the consumer's queue takes it. -/
theorem numbered_publish {w : Broker} (h : Numbered w) (exchange routing_key : String)
    (body : Body) :
    Numbered (w.publish exchange routing_key body) ∧
      (NoneLost (w.publish exchange routing_key body) ↔
        NoneLost w ∧ QUEUE_NAME ∈ w.targets exchange routing_key) := by
  have hlength : (w.publish exchange routing_key body).published.length =
      w.published.length + 1 := List.length_append
  have hnum : Numbered (w.publish exchange routing_key body) := by
    refine ⟨fun m hm => ?_, fun m hm => ?_⟩
    · rw [hlength]
      rcases List.mem_append.mp hm with hm | hm
      · have hlt := h.lt m hm
        omega
      · obtain ⟨q, -, rfl⟩ := List.mem_map.mp hm
        show w.published.length < w.published.length + 1
        omega
    · rcases List.mem_append.mp hm with hm | hm
      · exact h.live m hm
      · obtain ⟨q, -, rfl⟩ := List.mem_map.mp hm
        exact fun hd => by cases hd
  -- only the new number can have become kept, and it has if the queue was a target
  have hkept : ∀ i, Kept (w.publish exchange routing_key body) i ↔
      Kept w i ∨ (i = w.published.length ∧ QUEUE_NAME ∈ w.targets exchange routing_key) := by
    intro i
    rw [kept_iff hnum, kept_iff h, Broker.publish, List.map_append, List.mem_append, List.map_map]
    refine or_congr Iff.rfl ?_
    simp only [List.mem_map, Function.comp_apply, place, Prod.mk.injEq]
    constructor
    · rintro ⟨q, hq, rfl, rfl⟩
      exact ⟨rfl, hq⟩
    · rintro ⟨rfl, hq⟩
      exact ⟨_, hq, rfl, rfl⟩
  have hnew : ¬ Kept w w.published.length := by
    rintro ⟨m, hm, -, hp, -⟩
    have hlt := h.lt m hm
    omega
  refine ⟨hnum, ?_⟩
  constructor
  · intro hall
    refine ⟨fun i hi => ?_, ?_⟩
    · rcases (hkept i).mp (hall i (by omega)) with hk | ⟨rfl, -⟩
      · exact hk
      · omega
    · rcases (hkept w.published.length).mp (hall _ (by omega)) with hk | ⟨-, hq⟩
      · exact absurd hk hnew
      · exact hq
  · rintro ⟨hall, hq⟩ i hi
    rw [hkept]
    by_cases hlast : i = w.published.length
    · exact .inr ⟨hlast, hq⟩
    · exact .inl (hall i (by omega))

/-- A call other than a publication leaves the messages alone. -/
theorem call_messages (w : Broker) (party : Party) (answer : String) {c : AmqpCall}
    (hc : ∀ exchange routing_key body content_type delivery_mode,
      c ≠ .basic_publish exchange routing_key body content_type delivery_mode) :
    (w.call party answer c).1.messages = w.messages ∧
      (w.call party answer c).1.published = w.published := by
  cases c with
  | basic_publish exchange routing_key body content_type delivery_mode =>
    exact absurd rfl (hc _ _ _ _ _)
  | queue_bind exchange queue routing_key =>
    rw [Broker.call]
    split_ifs <;> exact ⟨rfl, rfl⟩
  | basic_consume queue auto_ack =>
    cases party with
    | producer events => exact ⟨rfl, rfl⟩
    | consumer proc =>
      rw [Broker.call]
      split_ifs <;> exact ⟨rfl, rfl⟩
  | _ => exact ⟨rfl, rfl⟩

/-- A call loses nothing, unless it publishes what the consumer's queue does not take. -/
theorem numbered_call {w : Broker} (h : Numbered w) (party : Party) (answer : String)
    (c : AmqpCall) :
    Numbered (w.call party answer c).1 ∧
      (NoneLost (w.call party answer c).1 ↔ NoneLost w ∧
        match c with
        | .basic_publish exchange routing_key _ _ _ =>
          exchange ∈ w.exchanges → QUEUE_NAME ∈ w.targets exchange routing_key
        | _ => True) := by
  by_cases hc : ∀ exchange routing_key body content_type delivery_mode,
      c ≠ .basic_publish exchange routing_key body content_type delivery_mode
  · obtain ⟨hm, hp⟩ := call_messages w party answer hc
    have hsame := numbered_congr h hp (congrArg _ hm) (hm ▸ h.live)
    refine ⟨hsame.1, hsame.2.trans ?_⟩
    cases c with
    | basic_publish exchange routing_key body content_type delivery_mode =>
      exact absurd rfl (hc _ _ _ _ _)
    | _ => exact (iff_of_eq (and_true _)).symm
  · simp only [ne_eq, not_forall, not_not] at hc
    obtain ⟨exchange, routing_key, body, content_type, delivery_mode, rfl⟩ := hc
    rw [Broker.call]
    by_cases hx : exchange ∈ w.exchanges
    · rw [if_pos hx]
      have hpub := numbered_publish h exchange routing_key body
      exact ⟨hpub.1, hpub.2.trans (and_congr Iff.rfl ⟨fun hq _ => hq, fun hq => hq hx⟩)⟩
    · rw [if_neg hx]
      exact ⟨h, (and_iff_left fun hx' => absurd hx' hx).symm⟩

/-- **What one step loses.** -/
theorem numbered_step {s s' : State} {a : Action} (h : Numbered s.shared)
    (hstep : step s a = some s') :
    Numbered s'.shared ∧ (NoneLost s'.shared ↔ NoneLost s.shared ∧ Bound s a) := by
  cases a with
  | start party =>
    cases hstep
    exact ⟨h, (iff_of_eq (and_true _)).symm⟩
  | call i answer =>
    obtain ⟨l₁, t, l₂, t', hi, -, ht, -⟩ := Pool.advance_eq_some hstep
    obtain ⟨c, k, r, hp, hexec, -⟩ := Pool.Task.step_atomic ht
    have hcall := numbered_call h t.label answer c
    have hshared : (s.shared.call t.label answer c).1 = s'.shared :=
      congrArg Prod.fst (Option.some.inj hexec)
    rw [hshared] at hcall
    refine ⟨hcall.1, hcall.2.trans (and_congr Iff.rfl ?_)⟩
    have hbound : Bound s (.call i answer) ↔
        match t.prog.head? with
        | some (.basic_publish exchange routing_key _ _ _) =>
          exchange ∈ s.shared.exchanges → QUEUE_NAME ∈ s.shared.targets exchange routing_key
        | _ => True := by
      simp only [Bound, hi, Option.mem_some_iff, forall_eq']
    rw [hbound, hp, Prog.head?_call]
    cases c <;> exact Iff.rfl
  | deliver proc tag =>
    simp only [step] at hstep
    split at hstep
    · cases hstep
    · split at hstep
      · cases hstep
        have hset := numbered_setStatus h tag
          (show Status.unacked proc ≠ .discarded from fun hd => by cases hd)
        exact ⟨hset.1, hset.2.trans (iff_of_eq (and_true _)).symm⟩
      · cases hstep
  | settle proc tag ack =>
    simp only [step] at hstep
    split at hstep
    · cases hstep
    · split at hstep
      · cases hstep
        have hset := numbered_setStatus h tag
          (show (if ack then Status.acked else .ready) ≠ .discarded from
            fun hd => by cases ack <;> cases hd)
        exact ⟨hset.1, hset.2.trans (iff_of_eq (and_true _)).symm⟩
      · cases hstep
  | stop i =>
    simp only [step] at hstep
    split at hstep
    · cases hstep
    · split at hstep
      · cases hstep
        exact ⟨h, (iff_of_eq (and_true _)).symm⟩
      · next proc _ =>
        cases hstep
        have hdis := numbered_disconnect h proc
        exact ⟨hdis.1, hdis.2.trans (iff_of_eq (and_true _)).symm⟩

/-- **At least once from publishing on.** In every run of producers and consumers, nothing is
lost just when the consumer's queue took each publication at the moment it was published. -/
theorem none_lost_iff {as : List Action} {s : State}
    (hrun : Runs.exec step init as = some s) :
    NoneLost s.shared ↔ Runs.Meets step Bound init as := by
  have hiff := Runs.exec_iff (I := fun s => Numbered s.shared) (P := fun s => NoneLost s.shared)
    (fun _ _ _ h hstep => numbered_step h hstep) numbered_init hrun
  have hinit : NoneLost init.shared := fun i hi => absurd hi (Nat.not_lt_zero i)
  exact hiff.trans (and_iff_right hinit)

/-- The consumer has started when the message is published. -/
def startedRun : List Action :=
  [.start (.consumer 0), .call 0 "", .call 0 "", .call 0 "", .call 0 "", .call 0 "", .call 0 "",
    .call 0 "", .call 0 "",
    .start (.producer [⟨"message.sent", "MessageSent", "chat-service",
      .obj [("from_user_id", .str "u-1")]⟩]),
    .call 1 "", .call 1 "e-1", .call 1 "2026-05-19T10:00:00Z", .call 1 "", .deliver 0 0,
    .settle 0 0 true]

theorem none_lost_iff_started :
    ∃ s, Runs.exec step init startedRun = some s ∧ s.shared.published.length = 1 ∧
      (NoneLost s.shared ↔ Runs.Meets step Bound init startedRun) := by
  have hrun : (Runs.exec step init startedRun).map (fun s => s.shared.published.length) =
      some 1 := by decide
  obtain ⟨s, hs, hlength⟩ := Option.map_eq_some_iff.mp hrun
  exact ⟨s, hs, hlength, none_lost_iff hs⟩

/-- A message is published while the consumer has bound its first key only. -/
def earlyRun : List Action :=
  [.start (.consumer 0), .call 0 "", .call 0 "", .call 0 "",
    .start (.producer [⟨"message.sent", "MessageSent", "chat-service",
      .obj [("from_user_id", .str "u-1")]⟩]),
    .call 1 "", .call 1 "e-1", .call 1 "2026-05-19T10:00:00Z", .call 1 "",
    .call 0 "", .call 0 "", .call 0 "", .call 0 "", .call 0 ""]

instance (w : Broker) (i : Nat) : Decidable (Kept w i) :=
  inferInstanceAs (Decidable (∃ m ∈ w.messages, _))

instance (w : Broker) : Decidable (NoneLost w) :=
  inferInstanceAs (Decidable (∀ i < w.published.length, _))

/-- The consumer starts up, and the event is nowhere. -/
theorem earlyRun_loses :
    ∃ s, Runs.exec step init earlyRun = some s ∧ s.shared.consumers = [(0, QUEUE_NAME)] ∧
      ¬ NoneLost s.shared := by
  have hrun : (Runs.exec step init earlyRun).map (fun s =>
      (s.shared.consumers, decide (NoneLost s.shared))) =
        some ([(0, QUEUE_NAME)], false) := by decide
  obtain ⟨s, hs, he⟩ := Option.map_eq_some_iff.mp hrun
  simp only [Prod.mk.injEq, decide_eq_false_iff_not] at he
  exact ⟨s, hs, he⟩

end Startup

end SocialNetwork.EventService

import SocialNetwork.MongoApi.RateLimitTheorems

/-!
# Runs of the rate limiter

Every request in flight knows from its ghost state what is recorded of it (`Agrees`); with what Redis
holds this is kept by every step whose `INCR` falls into the window its request has read.
-/

namespace SocialNetwork.MongoApi

open DocStore KeyValue

variable {w w' : World} {counts : List Count} {l : Nat × Request} {g : Ghost} {c : Call}
  {aux : Option Scan} {outcome : Outcome}

/-! ## What a request knows of its count -/

/-- The ghost state of a request says what is recorded of it. -/
def Agrees (counts : List Count) (l : Nat × Request) (g : Ghost) : Prop :=
  match g.phase with
  | .start | .read _ => ∀ x ∈ counts, x.id ≠ l.1
  | .counted window current =>
    ∃ x ∈ counts, x.id = l.1 ∧ x.ip = l.2.ip ∧ x.window = window ∧ x.current = some current
  | .lost => ∀ x ∈ counts, x.id = l.1 → x.current = none

/-- The counts of other requests do not matter. -/
theorem Agrees.append (h : Agrees counts l g) {added : List Count} (hid : ∀ x ∈ added, x.id ≠ l.1) :
    Agrees (counts ++ added) l g := by
  unfold Agrees at h ⊢
  cases hphase : g.phase with
  | counted window current =>
    rw [hphase] at h
    obtain ⟨x, hx, hrest⟩ := h
    exact ⟨x, List.mem_append_left _ hx, hrest⟩
  | lost =>
    rw [hphase] at h
    intro x hx heq
    rcases List.mem_append.mp hx with hx | hx
    · exact h x hx heq
    · exact absurd heq (hid x hx)
  | _ =>
    rw [hphase] at h
    intro x hx
    rcases List.mem_append.mp hx with hx | hx
    · exact h x hx
    · exact hid x hx

/-! ## One step of a call -/

/-- No key that is invalidated is a counter. -/
theorem not_isRateKey {key p : String} (hp : p ∈ ["users:", "posts:", "stats:", "messages:"])
    (hkey : startsWith p key = true) : ¬ IsRateKey key := by
  rintro ⟨client, window, rfl⟩
  rw [startsWith_rateKey hp] at hkey
  cases hkey

theorem HoldsCounts.of_redis (h : HoldsCounts w counts) (hnow : w'.now = w.now)
    (hredis : w'.redis = w.redis) : HoldsCounts w' counts := by
  refine h.of_entryOf hnow (fun client window => by rw [hredis]) fun e he _ _ _ => ?_
  rw [hredis] at he
  exact he

/-- The keys of the page of a cursor begin like its prefix. -/
def PageBegins (c : Call) (aux : Option Scan) : Prop :=
  ∀ prefix_ sc, c = .delete_scanned prefix_ → aux = some sc →
    ∀ key ∈ sc.batch, startsWith prefix_ key = true

variable [Bson]

/-- An invalidation leaves the counts alone. -/
theorem HoldsCounts.loopStep (h : HoldsCounts w counts) {r : Request} {prefix_ : String}
    {y : Option Scan ⊕ Except PyError Unit} (hallows : g.allows r (.delete_scanned prefix_))
    (hpage : PageBegins (.delete_scanned prefix_) aux)
    (hloop : MongoApi.loopStep r prefix_ aux outcome w = some (w', y)) : HoldsCounts w' counts := by
  have hbatch : ∀ key ∈ (aux.getD (Scan.begin_ w.redis)).batch, ¬ IsRateKey key := by
    intro key hkey
    cases aux with
    | none => cases hkey
    | some sc => exact not_isRateKey hallows.2 (hpage prefix_ sc rfl rfl key hkey)
  cases loopStep_cases hloop with
  | del key rest hkeys =>
    apply h.del (hbatch key _)
    rw [hkeys]
    exact List.mem_cons_self
  | scan keys last hkeys hlast hadmits => exact h
  | done hkeys hlast => exact h
  | raises w₁ hw₁ =>
    rcases hw₁ with rfl | ⟨key, hkey, rfl⟩
    · exact h.of_redis rfl rfl
    · exact (h.del (hbatch key hkey)).of_redis rfl rfl

/-- Only an `INCR` changes what is counted. -/
theorem HoldsCounts.execute (h : HoldsCounts w counts) {ω : Choice} {r : Request}
    (hincr : ∀ key, c ≠ .incr key) (hallows : g.allows r c)
    (hphase : ∀ window current, g.phase = .counted window current → window ≤ windowOf w.now)
    {x : Except PyError c.Answer} (hx : MongoApi.execute ω r c w = some (w', x)) :
    HoldsCounts w' counts := by
  have hframe := execute_frame hx
  by_cases hredis : c.changesRedis = false
  · exact h.of_redis hframe.now (hframe.redis hredis)
  · cases c with
    | setex key ttl value =>
      obtain ⟨p, hp, -, hkey⟩ := startsWith_cache_key hallows.1
      cases hx
      apply h.put (not_isRateKey (p := p) _ hkey)
      exact List.mem_append_left ["messages:"] hp
    | delete_scanned prefix_ => cases hx
    | incr key => exact absurd rfl (hincr key)
    | expire key ttl =>
      obtain ⟨message, client, window, -, hcounted, rfl, rfl⟩ := hallows
      cases hx
      exact h.renew (hphase window 1 hcounted)
    | _ => exact absurd rfl hredis

omit [Bson] in
/-- The page of a cursor holds keys that begin like its prefix. -/
theorem PageBegins.next {r : Request} {sc : Option Scan} (h : PageBegins c aux)
    (hexec : MongoApi.exec r c aux outcome w = some (w', .inl sc)) : PageBegins c sc := by
  rintro prefix_ sc' rfl rfl
  cases loopStep_cases hexec with
  | del key rest hkeys =>
    intro key' hkey'
    cases aux with
    | none => cases hkeys
    | some sc => exact h prefix_ sc rfl rfl key' (List.mem_of_mem_tail hkey')
  | scan keys last hkeys hlast hadmits => exact fun key hkey => (hadmits.1 key hkey).1

/-- What a step of a call adds to the counts, and that it is recorded as the request knows it. -/
structure Recorded (w' : World) (counts added : List Count) (l : Nat × Request) : Prop where
  holds : HoldsCounts w' (counts ++ added)
  numbered : Numbered (counts ++ added)
  own : ∀ x ∈ added, x.id = l.1
  ids : added = [] ∨ (∃ x, added = [x]) ∧ ∀ x ∈ counts, x.id ≠ l.1

omit [Bson] in
theorem recorded_nil (h : HoldsCounts w' counts) (hnumbered : Numbered counts) :
    Recorded w' counts [] l := by
  have hnil := List.append_nil counts
  exact ⟨hnil.symm ▸ h, hnil.symm ▸ hnumbered, nofun, .inl rfl⟩

/-- An `INCR` in the window that its request has read. -/
theorem incr_recorded {key : String} (h : HoldsCounts w counts) (hnumbered : Numbered counts)
    (hallows : g.allows l.2 (.incr key)) (hagrees : Agrees counts l g)
    (hwindow : ∃ client, key = rateKey client (windowOf w.now))
    {y : Option Scan ⊕ Except PyError Int}
    (hexec : MongoApi.exec l.2 (.incr key) aux outcome w = some (w', y)) :
    Recorded w' counts (counted l w.now (.incr key) outcome y) l ∧
      ∀ r, y = .inr r → Agrees (counts ++ counted l w.now (.incr key) outcome y) l
        (g.next (.incr key) r) := by
  obtain ⟨message, client, window, hl, hphase, rfl⟩ := hallows
  obtain ⟨client', hkey⟩ := hwindow
  obtain ⟨-, rfl⟩ := rateKey_inj hkey
  have hip : l.2.ip = client.getD "unknown" := by
    rw [hl]
    rfl
  have hnew : ∀ x ∈ counts, x.id ≠ l.1 := by
    unfold Agrees at hagrees
    rw [hphase] at hagrees
    exact hagrees
  have hrecorded : ∀ (current : Option Int) ω x,
      execute ω l.2 (.incr (rateKey client (windowOf w.now))) w = some (w', x) →
      (∀ n : Int, current = some n → x = .ok n) →
        Recorded w' counts [⟨l.1, l.2.ip, w.now, current⟩] l := by
    intro current ω x hx hcurrent
    obtain ⟨heq, hholds⟩ := h.incr (y := ⟨l.1, l.2.ip, w.now, current⟩) hip rfl hx
    refine ⟨hholds, hnumbered.append fun n hn => ?_, ?_, .inr ⟨⟨_, rfl⟩, hnew⟩⟩
    · exact Except.ok.inj ((hcurrent n hn).symm.trans heq)
    · intro x hx
      rw [List.mem_singleton.mp hx]
  rcases exec_atomic rfl hexec with ⟨ω, x, rfl, hx, rfl⟩ | ⟨ω, x, rfl, hx, rfl⟩ | ⟨⟨ω, rfl⟩, rfl, rfl⟩
  · -- answered
    obtain ⟨rfl, -⟩ := h.incr (y := ⟨l.1, l.2.ip, w.now, none⟩) hip rfl hx
    refine ⟨hrecorded (some _) ω _ hx fun n hn => congrArg Except.ok (Option.some.inj hn), ?_⟩
    intro r hr
    cases hr
    show Agrees _ l (g.count _)
    unfold Agrees Ghost.count
    rw [hphase]
    exact ⟨_, List.mem_append_right _ List.mem_cons_self, rfl, rfl, rfl, rfl⟩
  · -- the answer is lost
    refine ⟨hrecorded none ω _ hx nofun, ?_⟩
    intro r hr
    cases hr
    show ∀ x : Count, x ∈ counts ++ [_] → x.id = l.1 → x.current = none
    intro x hx hid
    rcases List.mem_append.mp hx with hx | hx
    · exact absurd hid (hnew x hx)
    · rw [List.mem_singleton.mp hx]
  · -- nothing has happened
    refine ⟨recorded_nil h hnumbered, ?_⟩
    intro r hr
    cases hr
    show ∀ x : Count, x ∈ counts ++ [] → x.id = l.1 → x.current = none
    intro x hx hid
    rw [List.append_nil] at hx
    exact absurd hid (hnew x hx)

omit [Bson] in
/-- Nothing else is counted. -/
theorem counted_eq_nil (hincr : ∀ key, c ≠ .incr key) (now : Nat)
    (y : Option Scan ⊕ Except PyError c.Answer) : counted l now c outcome y = [] := by
  cases c with
  | incr key => exact absurd rfl (hincr key)
  | _ => rfl

/-- What a step of a request counts. -/
theorem exec_recorded (h : HoldsCounts w counts) (hnumbered : Numbered counts)
    (hallows : g.allows l.2 c) (hagrees : Agrees counts l g)
    (hwindow : ∀ key, c = .incr key → ∃ client, key = rateKey client (windowOf w.now))
    (hpage : PageBegins c aux) {y : Option Scan ⊕ Except PyError c.Answer}
    (hexec : MongoApi.exec l.2 c aux outcome w = some (w', y)) :
    Recorded w' counts (counted l w.now c outcome y) l ∧
      ∀ r, y = .inr r → Agrees (counts ++ counted l w.now c outcome y) l (g.next c r) := by
  by_cases hincr : ∀ key, c ≠ .incr key
  · have hholds : HoldsCounts w' counts := by
      by_cases hloop : c.isLoop = true
      · cases c with
        | delete_scanned prefix_ => exact h.loopStep hallows hpage hexec
        | _ => cases hloop
      · -- the window of a count has begun, since the count is in the past
        have hphase : ∀ window current, g.phase = .counted window current →
            window ≤ windowOf w.now := by
          intro window current hphase
          unfold Agrees at hagrees
          rw [hphase] at hagrees
          obtain ⟨x, hx, -, -, rfl, -⟩ := hagrees
          exact windowOf_le (h.past x hx)
        rcases exec_atomic (Bool.not_eq_true _ ▸ hloop) hexec with
          ⟨ω, x, -, hx, -⟩ | ⟨ω, x, -, hx, -⟩ | ⟨-, rfl, -⟩
        · exact h.execute hincr hallows hphase hx
        · exact h.execute hincr hallows hphase hx
        · exact h
    rw [counted_eq_nil hincr]
    refine ⟨recorded_nil hholds hnumbered, fun r _ => ?_⟩
    rw [List.append_nil]
    by_cases htime : c = .time
    · subst htime
      have hstart : g.phase = .start := hallows
      unfold Agrees at hagrees
      rw [hstart] at hagrees
      cases r with
      | ok now => exact hagrees
      | error e =>
        show Agrees counts l (g.fail e)
        unfold Agrees Ghost.fail
        rw [hstart]
        exact hagrees
    · unfold Agrees
      rw [g.next_phase hincr htime r]
      exact hagrees
  · simp only [not_forall, not_not] at hincr
    obtain ⟨key, rfl⟩ := hincr
    exact incr_recorded h hnumbered hallows hagrees (hwindow key rfl) hexec

/-! ## Runs -/

abbrev Tracing.Task :=
  Pool.Task (Nat × Request) Call Call.Answer PyError Reply (Option Scan)

/-- A request in flight keeps to the protocol, and its count is recorded as it knows it. -/
structure Follows (counts : List Count) (task : Tracing.Task) : Prop where
  ghost : ∃ g, task.prog.Obeys (monitor task.label.2) (Ended task.label.2) g ∧
    Agrees counts task.label g ∧ ∀ e ∈ g.failed, ¬ e.limited
  page : ∀ c, task.prog.head? = some c → PageBegins c task.aux

/-- So has a request that is answered. -/
def Answered (counts : List Count) (a : Nat × Request × Except PyError Reply) : Prop :=
  ∃ g, Ended a.2.1 a.2.2 g ∧ Agrees counts (a.1, a.2.1) g ∧ ∀ e ∈ g.failed, ¬ e.limited

/-- Counts of other requests do not matter. -/
theorem Follows.append {task : Tracing.Task} (h : Follows counts task) {added : List Count}
    (hid : ∀ x ∈ added, x.id ≠ task.label.1) : Follows (counts ++ added) task := by
  obtain ⟨⟨g, hobeys, hagrees, hfailed⟩, hpage⟩ := h
  exact ⟨⟨g, hobeys, hagrees.append hid, hfailed⟩, hpage⟩

omit [Bson] in
theorem Answered.append {a : Nat × Request × Except PyError Reply} (h : Answered counts a)
    {added : List Count} (hid : ∀ x ∈ added, x.id ≠ a.1) : Answered (counts ++ added) a := by
  obtain ⟨g, hended, hagrees, hfailed⟩ := h
  exact ⟨g, hended, hagrees.append hid, hfailed⟩

/-- The `INCR` that a request is about to make is of the window at hand: it reads the clock and
counts itself in one window. -/
def InWindow (t : Tracing) : Action → Prop
  | .call i _ => ∀ task, t.tasks[i]? = some task → ∀ key, task.prog.head? = some (.incr key) →
      ∃ client, key = rateKey client (windowOf t.shared.world.now)
  | _ => True

/-- One step of a request. -/
theorem task_recorded {s s' : Traced} {task task' : Tracing.Task}
    (h : HoldsCounts s.world s.counts) (hnumbered : Numbered s.counts)
    (hfollows : Follows s.counts task)
    (hwindow : ∀ key, task.prog.head? = some (.incr key) →
      ∃ client, key = rateKey client (windowOf s.world.now))
    (hstep : task.step tracer outcome s = some (s', task')) :
    ∃ added, s'.counts = s.counts ++ added ∧ s'.next = s.next ∧ s'.answers = s.answers ∧
      task'.label = task.label ∧ Recorded s'.world s.counts added task.label ∧
      Follows (s.counts ++ added) task' := by
  obtain ⟨⟨g, hobeys, hagrees, hfailed⟩, hpage⟩ := hfollows
  obtain ⟨c, k, hprog, hexec⟩ := Pool.Task.step_eq_some.mp hstep
  rw [hprog] at hobeys hpage hwindow
  obtain ⟨hallows, hnext⟩ := hobeys
  have hpage := hpage c rfl
  have hincr : ∀ key, c = .incr key → ∃ client, key = rateKey client (windowOf s.world.now) :=
    fun key heq => hwindow key (congrArg some heq)
  rcases hexec with ⟨sc, hexec, rfl⟩ | ⟨r, hexec, rfl⟩
  · obtain ⟨⟨w', y⟩, hx, heq⟩ := Option.map_eq_some_iff.mp hexec
    cases heq
    obtain ⟨hrecorded, -⟩ := exec_recorded h hnumbered hallows hagrees hincr hpage hx
    refine ⟨_, rfl, rfl, rfl, rfl, hrecorded, ?_⟩
    -- the call goes on
    have hloop : ∀ key, c ≠ .incr key := by
      rintro key rfl
      have hloop := isLoop_of_exec_inl hx
      cases hloop
    rw [counted_eq_nil hloop, List.append_nil]
    refine ⟨⟨g, ?_, hagrees, hfailed⟩, ?_⟩
    · rw [hprog]
      exact ⟨hallows, hnext⟩
    · intro c' hc'
      rw [hprog] at hc'
      cases hc'
      exact hpage.next hx
  · obtain ⟨⟨w', y⟩, hx, heq⟩ := Option.map_eq_some_iff.mp hexec
    cases heq
    obtain ⟨hrecorded, hafter⟩ := exec_recorded h hnumbered hallows hagrees hincr hpage hx
    refine ⟨_, rfl, rfl, rfl, rfl, hrecorded, ⟨g.next c r, hnext r, hafter r rfl, ?_⟩, ?_⟩
    · intro e he
      rcases g.next_failed r e he with he | rfl
      · exact hfailed e he
      · exact exec_error hx
    · intro c' _ prefix_ sc _ hsc
      cases hsc

namespace Tracing

/-- The number of every request that has come. -/
def ids (t : Tracing) : List Nat :=
  t.tasks.map (·.label.1) ++ t.shared.answers.map (·.1)

/-- **The invariant.** Every request has its own number, and its count is recorded as it knows it. -/
structure Sound (t : Tracing) : Prop where
  holds : HoldsCounts t.shared.world t.shared.counts
  numbered : Numbered t.shared.counts
  counts : (t.shared.counts.map (·.id)).Nodup ∧ ∀ x ∈ t.shared.counts, x.id < t.shared.next
  ids : t.ids.Nodup ∧ ∀ id ∈ t.ids, id < t.shared.next
  tasks : ∀ task ∈ t.tasks, Follows t.shared.counts task
  answers : ∀ a ∈ t.shared.answers, Answered t.shared.counts a

variable {t t' : Tracing}

/-- Nothing has been counted yet. -/
theorem sound_init (db : Db) : (init db).Sound where
  holds := by
    have hnone : ∀ e, e ∉ (init db).shared.world.redis.entries := fun e => List.not_mem_nil
    have hcounts : ∀ x, x ∉ (init db).shared.counts := fun x => List.not_mem_nil
    refine ⟨fun x hx => ?_, fun client window _ => rfl, fun e he => ?_⟩
    · exact absurd hx (hcounts x)
    · exact absurd he (hnone e)
  numbered := by
    intro before x after heq
    exact absurd heq (by simp [init])
  counts := ⟨List.nodup_nil, nofun⟩
  ids := ⟨List.nodup_nil, nofun⟩
  tasks task htask := absurd htask List.not_mem_nil
  answers a ha := absurd ha List.not_mem_nil

/-- A request arrives. -/
theorem Sound.request (h : t.Sound) (r : Request) (hstep : t.step (.request r) = some t') :
    t'.Sound := by
  cases hstep
  have hids : Tracing.ids (Pool.spawn tracer (t.shared.next, r) (handle r)
      { t with shared := { t.shared with next := t.shared.next + 1 } }) =
        t.tasks.map (·.label.1) ++ [t.shared.next] ++ t.shared.answers.map (·.1) := by
    unfold Tracing.ids Pool.spawn
    rw [List.map_append]
    rfl
  have hperm : (t.tasks.map (·.label.1) ++ [t.shared.next] ++ t.shared.answers.map (·.1)).Perm
      (t.shared.next :: t.ids) := by
    rw [List.append_assoc]
    exact List.perm_middle
  refine ⟨⟨h.holds.past, h.holds.value, h.holds.expires⟩, h.numbered, ⟨h.counts.1, ?_⟩, ?_, ?_, h.answers⟩
  · exact fun x hx => Nat.lt_succ_of_lt (h.counts.2 x hx)
  · rw [hids]
    refine ⟨hperm.nodup_iff.mpr (List.nodup_cons.mpr ⟨?_, h.ids.1⟩), fun id hid => ?_⟩
    · exact fun hmem => Nat.lt_irrefl _ (h.ids.2 _ hmem)
    · rcases List.mem_cons.mp (hperm.mem_iff.mp hid) with rfl | hid
      · exact Nat.lt_succ_self _
      · exact Nat.lt_succ_of_lt (h.ids.2 id hid)
  · intro task htask
    rcases List.mem_append.mp htask with htask | htask
    · exact h.tasks task htask
    · rw [List.mem_singleton.mp htask]
      refine ⟨⟨.start, handle_obeys r, ?_, nofun⟩, fun c _ prefix_ sc _ hsc => nomatch hsc⟩
      -- its number is new, so it has no count yet
      show ∀ x ∈ t.shared.counts, x.id ≠ t.shared.next
      exact fun x hx => Nat.ne_of_lt (h.counts.2 x hx)

/-- A request makes a step. -/
theorem Sound.call (h : t.Sound) {i : Nat} {outcome : Outcome} (hwindow : InWindow t (.call i outcome))
    (hstep : t.step (.call i outcome) = some t') : t'.Sound := by
  obtain ⟨l₁, task, l₂, task', hi, htasks, htask, htasks'⟩ := Pool.advance_eq_some hstep
  have hmem : task ∈ t.tasks := List.mem_of_getElem? hi
  obtain ⟨added, hcounts, hnext, hanswers, hlabel, hrecorded, hfollows⟩ :=
    task_recorded h.holds h.numbered (h.tasks task hmem) (hwindow task hi) htask
  have hids : t'.ids = t.ids := by
    unfold Tracing.ids
    rw [htasks, htasks', hanswers, List.map_append, List.map_append, List.map_cons, List.map_cons,
      hlabel]
  -- the counts that are added are of no other request
  have hnodup := h.ids.1
  unfold Tracing.ids at hnodup
  rw [htasks, List.map_append, List.map_cons, List.append_assoc, List.cons_append] at hnodup
  have hself := (List.nodup_cons.mp (List.nodup_middle.mp hnodup)).1
  have hother : ∀ id ∈ l₁.map (·.label.1) ++ (l₂.map (·.label.1) ++ t.shared.answers.map (·.1)),
      ∀ x ∈ added, x.id ≠ id := by
    rintro id hid x hx rfl
    rw [hrecorded.own x hx] at hid
    exact hself hid
  have hbound : task.label.1 < t.shared.next :=
    h.ids.2 _ (List.mem_append_left _ (List.mem_map_of_mem hmem))
  have holds := hrecorded.holds
  have hnumbered := hrecorded.numbered
  rw [← hcounts] at holds hnumbered
  refine ⟨holds, hnumbered, ?_, ?_, ?_, ?_⟩
  · rw [hcounts, hnext]
    refine ⟨?_, fun x hx => ?_⟩
    · rcases hrecorded.ids with rfl | ⟨⟨x, rfl⟩, hnew⟩
      · rw [List.append_nil]
        exact h.counts.1
      · rw [List.map_append, List.map_singleton, hrecorded.own x List.mem_cons_self]
        refine List.nodup_append.mpr ⟨h.counts.1, List.nodup_singleton _, ?_⟩
        intro id hid id' hid'
        obtain ⟨x', hx', rfl⟩ := List.mem_map.mp hid
        rw [List.mem_singleton.mp hid']
        exact hnew x' hx'
    · rcases List.mem_append.mp hx with hx | hx
      · exact h.counts.2 x hx
      · rw [hrecorded.own x hx]
        exact hbound
  · rw [hids, hnext]
    exact h.ids
  · intro task₁ htask₁
    rw [hcounts]
    rw [htasks'] at htask₁
    rcases List.mem_append.mp htask₁ with hleft | hright
    · apply (h.tasks task₁ (htasks ▸ List.mem_append_left _ hleft)).append
      exact hother _ (List.mem_append_left _ (List.mem_map_of_mem hleft))
    · rcases List.mem_cons.mp hright with rfl | hright
      · exact hfollows
      · apply (h.tasks task₁
          (htasks ▸ List.mem_append_right _ (List.mem_cons_of_mem _ hright))).append
        exact hother _ (List.mem_append_right _ (List.mem_append_left _ (List.mem_map_of_mem hright)))
  · intro a ha
    rw [hanswers] at ha
    rw [hcounts]
    apply (h.answers a ha).append
    exact hother _ (List.mem_append_right _ (List.mem_append_right _ (List.mem_map_of_mem ha)))

omit [Bson] in
theorem perm_moved {α : Type} (a b c : List α) (x : α) :
    (a ++ b ++ (c ++ [x])).Perm (a ++ x :: b ++ c) := by
  have hlast : (a ++ b ++ c ++ [x]).Perm (x :: (a ++ b ++ c)) := List.perm_append_singleton x _
  have hfirst : (a ++ x :: (b ++ c)).Perm (x :: (a ++ (b ++ c))) := List.perm_middle
  rw [← List.append_assoc, List.append_assoc a (x :: b) c, List.cons_append]
  rw [← List.append_assoc a b c] at hfirst
  exact hlast.trans hfirst.symm

/-- A request is answered. -/
theorem Sound.finish (h : t.Sound) {i : Nat} (hstep : t.step (.finish i) = some t') : t'.Sound := by
  obtain ⟨⟨l, r, t₁⟩, hretire, rfl⟩ := Option.map_eq_some_iff.mp hstep
  obtain ⟨l₁, task, l₂, hi, htasks, rfl, hout, rfl⟩ := Pool.retire_eq_some hretire
  have hfollows := h.tasks task (List.mem_of_getElem? hi)
  have hanswered : Answered t.shared.counts (task.label.1, task.label.2, r) := by
    obtain ⟨g, hobeys, hagrees, hfailed⟩ := hfollows.ghost
    refine ⟨g, ?_, hagrees, hfailed⟩
    cases hprog : task.prog with
    | ret a =>
      rw [hprog] at hobeys hout
      rw [← Option.some.inj hout]
      exact hobeys
    | raise e =>
      rw [hprog] at hobeys hout
      rw [← Option.some.inj hout]
      exact hobeys
    | call c k =>
      rw [hprog] at hout
      cases hout
  -- the number moves from the requests in flight to the answers
  have hperm : ((l₁ ++ l₂).map (·.label.1) ++ (t.shared.answers ++
      [(task.label.1, task.label.2, r)]).map (·.1)).Perm t.ids := by
    unfold Tracing.ids
    rw [htasks]
    simp only [List.map_append, List.map_cons, List.map_nil]
    exact perm_moved _ _ _ _
  refine ⟨⟨h.holds.past, h.holds.value, h.holds.expires⟩, h.numbered, h.counts, ?_, ?_, ?_⟩
  · exact ⟨hperm.nodup_iff.mpr h.ids.1, fun id hid => h.ids.2 id (hperm.mem_iff.mp hid)⟩
  · intro task₁ htask₁
    apply h.tasks
    rw [htasks]
    rcases List.mem_append.mp htask₁ with hleft | hright
    · exact List.mem_append_left _ hleft
    · exact List.mem_append_right _ (List.mem_cons_of_mem _ hright)
  · intro a ha
    rcases List.mem_append.mp ha with ha | ha
    · exact h.answers a ha
    · rw [List.mem_singleton.mp ha]
      exact hanswered

/-- Every step keeps the counts in order. -/
theorem Sound.step (h : t.Sound) {a : Action} (hwindow : InWindow t a) (hstep : t.step a = some t') :
    t'.Sound := by
  cases a with
  | request r => exact h.request r hstep
  | call i outcome => exact h.call hwindow hstep
  | finish i => exact h.finish hstep
  | tick ms =>
    cases hstep
    exact ⟨h.holds.tick ms, h.numbered, h.counts, h.ids, h.tasks, h.answers⟩

end Tracing

end SocialNetwork.MongoApi

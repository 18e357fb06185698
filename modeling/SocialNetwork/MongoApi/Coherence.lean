import SocialNetwork.MongoApi.Dependence

/-!
# The entries of the cache

The invariant of the cache. A live entry that a `GET` has stored is what the request would compute
now, or a request in flight has yet to delete it (`Pending`), or an invalidation of its prefix has
failed since it was stored. `coherent_step` says that every step keeps this if the writes of Mongo
do not fail and no `GET` stores an answer too late (`Timely`).
-/

namespace SocialNetwork.MongoApi

open DocStore KeyValue

/-! ## Duties -/

/-- The request is bound to clear the entries of a prefix, and has not begun to. -/
def Clears (p : String) (task : Task) : Prop :=
  (task.prog.head? = some (.delete_scanned p) ∧ task.aux = none) ∨
    task.prog.Later (.delete_scanned p)

/-- The request has yet to delete the entry. -/
def Pending (p : String) (e : Entry Value Request) (task : Task) : Prop :=
  (task.prog.head? = some (.delete_scanned p) ∧ ∀ sc, task.aux = some sc → sc.Covers e) ∨
    task.prog.Later (.delete_scanned p)

section Duties

variable {p : String} {e : Entry Value Request} {task : Task} {l : Request} {g : Ghost}
  {prog : Api Reply}

/-- A scan that has not begun will come across every entry. -/
theorem Clears.pending (h : Clears p task) (e : Entry Value Request) : Pending p e task := by
  rcases h with ⟨hhead, haux⟩ | hlater
  · refine .inl ⟨hhead, fun sc hsc => ?_⟩
    rw [haux] at hsc
    cases hsc
  · exact .inr hlater

theorem Clears.will (h : Clears p task) : task.prog.Will (.delete_scanned p) :=
  Prog.will_iff.mpr (h.imp And.left id)

theorem Pending.will (h : Pending p e task) : task.prog.Will (.delete_scanned p) :=
  Prog.will_iff.mpr (h.imp And.left id)

/-- The call has not begun when the request comes to it. -/
theorem clears_of_will (h : prog.Will (.delete_scanned p)) (l : Request) :
    Clears p ⟨l, prog, none⟩ := by
  rcases Prog.will_iff.mp h with hhead | hlater
  · exact .inl ⟨hhead, rfl⟩
  · exact .inr hlater

/-- Only its deletion pays what is owed for a prefix. -/
theorem Ghost.mem_owed_next (hp : p ∈ g.owed) {c : Call} (hc : c ≠ .delete_scanned p)
    (r : Except PyError c.Answer) : p ∈ (g.next c r).owed := by
  have howe : ∀ (c : Call) (n : Nat), p ∈ (if n = 0 then g else g.owe c).owed := by
    intro c n
    split_ifs
    · exact hp
    · exact List.mem_append_left _ hp
  cases c with
  -- only the deletion of this prefix pays the debt
  | delete_scanned prefix_ =>
    have hne : p ≠ prefix_ := by
      rintro rfl
      exact hc rfl
    exact List.mem_filter.mpr ⟨hp, decide_eq_true hne⟩
  | insert_one coll doc =>
    cases r with
    | error e => exact hp
    | ok id => exact List.mem_append_left _ hp
  | update_one coll filter update =>
    cases r with
    | error e => exact hp
    | ok n => exact howe _ n
  | delete_one coll filter =>
    cases r with
    | error e => exact hp
    | ok n => exact howe _ n
  | find_one coll filter =>
    cases coll with
    | users => rcases r with e | _ | doc <;> exact hp
    | _ => cases r <;> exact hp
  | incr key =>
    cases r with
    | error e => exact hp
    | ok n =>
      show p ∈ (g.count n).owed
      unfold Ghost.count
      split <;> exact hp
  | _ => cases r <;> exact hp

/-- A request that owes an invalidation is bound to make it. -/
theorem will_of_owed [Bson] (h : prog.Obeys (monitor l) (Ended l) g) (hp : p ∈ g.owed) :
    prog.Will (.delete_scanned p) := by
  have hkeep : ∀ (g : Ghost) (c : Call) (r : Except PyError c.Answer), p ∈ g.owed →
      c ≠ .delete_scanned p → p ∈ (g.next c r).owed := fun g c r ho hc => Ghost.mem_owed_next ho hc r
  have hend : ∀ (r : Except PyError Reply) (g : Ghost), Ended l r g → ¬ p ∈ g.owed := by
    intro r g hended ho
    rw [hended.1] at ho
    cases ho
  exact Prog.Obeys.will hkeep hend h hp

end Duties

/-! ## What a request has read -/

/-- The rows that a call has answered. -/
def justRead : (c : Call) → Except PyError c.Answer → Option (List Doc)
  | .query _, .ok rows => some rows
  | _, _ => none

/-- A request stores what it makes of the rows it has just read. -/
def reader [Bson] (l : Request) : Prog.Monitor Call Call.Answer PyError (Option (List Doc)) where
  ok rows
    | .setex _ _ value => ∃ docs body, rows = some docs ∧ l.encode docs = .ok body ∧
        value = json_dumps body
    | _ => True
  next _ c r := justRead c r

/-- The request keeps to it in what it still has to do. -/
def Reads [Bson] (l : Request) (rows : Option (List Doc)) (prog : Api Reply) : Prop :=
  prog.Obeys (reader l) (fun _ _ => True) rows

section Reads

variable [Bson] {l : Request} {rows : Option (List Doc)}

/-- A request that is not cached stores nothing. -/
theorem reads_of_obeys (hl : l.cache_key = none) {g : Ghost} {prog : Api Reply}
    (h : prog.Obeys (monitor l) (Ended l) g) : Reads l rows prog := by
  induction prog generalizing g rows with
  | ret a => trivial
  | raise e => trivial
  | call c k ih =>
    refine ⟨?_, fun r => ih r (h.2 r)⟩
    cases c with
    | setex key ttl value =>
      have hkey : l.cache_key = some key := h.1.1
      rw [hl] at hkey
      cases hkey
    | _ => trivial

/-- What the cache says leaves the rows unread. -/
theorem reads_cache_get {key : String} {f : Option Value → Api Reply}
    (h : ∀ v, Reads l none (f v)) : Reads l rows (cache_get key >>= f) := by
  refine Prog.obeys_bind.mpr (Prog.obeys_tryCatch.mpr (Prog.obeys_bind.mpr
    (Prog.obeys_perform.mpr ⟨trivial, fun r => ?_⟩)))
  cases r with
  | error e => exact h none
  | ok v => exact h _

/-- What is stored is the encoding of the rows read. -/
theorem reads_cache_set {key : String} {docs : List Doc} {body : Value} {f : Unit → Api Reply}
    (hbody : l.encode docs = .ok body) (h : Reads l none (f ())) :
    Reads l (some docs) (cache_set key body >>= f) := by
  refine Prog.obeys_bind.mpr (Prog.obeys_tryCatch.mpr (Prog.obeys_perform.mpr
    ⟨⟨docs, body, rfl, hbody, rfl⟩, fun r => ?_⟩))
  cases r with
  | error e => exact h
  | ok u => exact h

theorem reads_listDocs {key : String} {coll : Coll} {filter : Filter} {sort : List (String × Bool)}
    (hencode : ∀ rows, l.encode rows = (rows.mapM to_json).map listOf) :
    Reads l rows (do
      let rows ← find coll filter sort
      let docs ← liftExcept (rows.mapM to_json)
      cache_set key (listOf docs)
      pure ⟨[("X-Cache", "MISS")], listOf docs⟩) := by
  refine Prog.obeys_perform_bind.mpr ⟨trivial, fun (rows : List Doc) => ?_, fun e => trivial⟩
  have hbody := hencode rows
  cases hdocs : rows.mapM to_json with
  | error e => trivial
  | ok docs =>
    rw [hdocs] at hbody
    exact reads_cache_set hbody trivial

/-- Every request stores only what it has just read. -/
theorem handle_reads (r : Request) : Reads r none (handle r) := by
  cases r with
  | get_users login min_age =>
    refine reads_cache_get fun v => ?_
    cases v with
    | some cached => trivial
    | none => exact reads_listDocs fun rows => rfl
  | get_posts author_id tag =>
    refine reads_cache_get fun v => ?_
    cases v with
    | some cached => trivial
    | none =>
      show Reads _ _ (liftExcept (optionalOid author_id) >>= _)
      cases optionalOid author_id with
      | error e => trivial
      | ok author => exact reads_listDocs fun rows => rfl
  | posts_by_users =>
    refine reads_cache_get fun v => ?_
    cases v with
    | some cached => trivial
    | none =>
      refine Prog.obeys_perform_bind.mpr ⟨trivial, fun (rows : List Doc) => ?_, fun e => trivial⟩
      exact reads_cache_set rfl trivial
  | _ => exact reads_of_obeys rfl (handle_obeys _)

end Reads

/-! ## What a step does to Redis -/

/-- Where an entry comes from: it was there, or the call has stored it, has begun a count with it or
has changed the count in it. -/
inductive Origin (l : Request) (c : Call) (w w' : World) (e : Entry Value Request) : Prop
  | kept (h : e ∈ w.redis.entries)
  | stored (key : String) (ttl : Nat) (value : Value) (hc : c = .setex key ttl value)
    (hnext : w.redis.next < w'.redis.next)
    (h : e = ⟨key, value, some (w.now + ttl * 1000), w.redis.next, w.now, l⟩)
  | counted (key : String) (hc : c = .incr key) (hnext : w.redis.next < w'.redis.next)
    (h : e = ⟨key, .int 1, none, w.redis.next, w.now, l⟩)
  | changed (x : Entry Value Request) (hx : x ∈ w.redis.entries)
    (hc : c = .incr x.key ∨ ∃ ttl, c = .expire x.key ttl)
    (h : e.key = x.key ∧ e.stamp = x.stamp ∧ e.stored_at = x.stored_at ∧ e.tag = x.tag)

/-- What a step leaves of Redis. -/
structure RedisStep (l : Request) (c : Call) (w w' : World) : Prop where
  now : w'.now = w.now
  next : w.redis.next ≤ w'.redis.next
  origin : ∀ e ∈ w'.redis.entries, Origin l c w w' e

section Redis

variable {l : Request} {c : Call} {w w' : World} {ω : Choice} {aux : Option Scan} {outcome : Outcome}

/-- Only entries are gone. -/
theorem RedisStep.of_subset (hnow : w'.now = w.now) (hnext : w'.redis.next = w.redis.next)
    (hsub : ∀ e ∈ w'.redis.entries, e ∈ w.redis.entries) : RedisStep l c w w' :=
  ⟨hnow, Nat.le_of_eq hnext.symm, fun e he => .kept (hsub e he)⟩

/-- The change of a count. -/
theorem redisStep_change {key : String} {f : Entry Value Request → Entry Value Request}
    (hc : c = .incr key ∨ ∃ ttl, c = .expire key ttl)
    (hf : ∀ x, (f x).key = x.key ∧ (f x).stamp = x.stamp ∧ (f x).stored_at = x.stored_at ∧
      (f x).tag = x.tag) : RedisStep l c w { w with redis := w.redis.change key f } := by
  refine ⟨rfl, Nat.le_refl _, fun e he => ?_⟩
  rcases Store.mem_change he with ⟨he, -⟩ | ⟨x, hx, rfl, rfl⟩
  · exact .kept he
  · exact .changed x hx hc (hf x)

theorem execute_redisStep {x : Except PyError c.Answer} (h : execute ω l c w = some (w', x)) :
    RedisStep l c w w' := by
  have hframe := execute_frame h
  have hsame : c.changesRedis = false → RedisStep l c w w' := by
    intro hc
    apply RedisStep.of_subset hframe.now
    · rw [hframe.redis hc]
    · rw [hframe.redis hc]
      exact fun e he => he
  cases c with
  | setex key ttl value =>
    cases h
    refine ⟨rfl, Nat.le_succ _, fun e he => ?_⟩
    rcases Store.mem_put.mp he with ⟨he, -⟩ | rfl
    · exact .kept he
    · exact .stored key ttl value rfl (Nat.lt_succ_self _) rfl
  -- the scan loop has steps of its own
  | delete_scanned prefix_ => cases h
  | incr key =>
    simp only [execute] at h
    split at h
    · cases h
      refine ⟨rfl, Nat.le_succ _, fun e he => ?_⟩
      rcases Store.mem_put.mp he with ⟨he, -⟩ | rfl
      · exact .kept he
      · exact .counted key rfl (Nat.lt_succ_self _) rfl
    · split at h
      · cases h
        exact redisStep_change (.inl rfl) fun x => ⟨rfl, rfl, rfl, rfl⟩
      · cases h
        exact RedisStep.of_subset rfl rfl fun e he => he
  | expire key ttl =>
    cases h
    refine redisStep_change (.inr ⟨ttl, rfl⟩) fun x => ?_
    unfold renew
    split_ifs <;> exact ⟨rfl, rfl, rfl, rfl⟩
  | _ => exact hsame rfl

/-- The loop only deletes. -/
theorem LoopStep.mem {p : String} {sc : Scan} {y : Option Scan ⊕ Except PyError Unit}
    (h : LoopStep l p sc w w' y) {e : Entry Value Request} (he : e ∈ w'.redis.entries) :
    e ∈ w.redis.entries := by
  cases h with
  | del key rest hbatch => exact (Store.mem_del.mp he).1
  | scan keys last hbatch hlast hadmits => exact he
  | done hbatch hlast => exact he
  | raises w₁ hw₁ =>
    rcases hw₁ with rfl | ⟨key, -, rfl⟩
    · exact he
    · exact (Store.mem_del.mp he).1

/-- A page of the scan removes entries only. -/
theorem LoopStep.redisStep {p : String} {sc : Scan} {y : Option Scan ⊕ Except PyError Unit}
    (h : LoopStep l p sc w w' y) : RedisStep l c w w' := by
  have hsame : w'.now = w.now ∧ w'.redis.next = w.redis.next := by
    cases h with
    | raises w₁ hw₁ => rcases hw₁ with rfl | ⟨key, -, rfl⟩ <;> exact ⟨rfl, rfl⟩
    | _ => exact ⟨rfl, rfl⟩
  exact RedisStep.of_subset hsame.1 hsame.2 fun e he => h.mem he

/-- The loop does not touch Mongo. -/
theorem LoopStep.db {p : String} {sc : Scan} {y : Option Scan ⊕ Except PyError Unit}
    (h : LoopStep l p sc w w' y) : w'.db = w.db := by
  cases h with
  | raises w₁ hw₁ => rcases hw₁ with rfl | ⟨key, -, rfl⟩ <;> rfl
  | _ => rfl

/-- A loop logs its own failure, and nothing else. -/
theorem LoopStep.failures {p : String} {sc : Scan} {y : Option Scan ⊕ Except PyError Unit}
    (h : LoopStep l p sc w w' y) : w'.failures = w.failures ∨
      w'.failures = w.failures ++ [⟨l, p, w.redis.next, w.now⟩] := by
  cases h with
  | raises w₁ hw₁ => rcases hw₁ with rfl | ⟨key, -, rfl⟩ <;> exact .inr rfl
  | _ => exact .inl rfl

/-- A call is the loop, or it is answered in one step. -/
theorem exec_cases {y : Option Scan ⊕ Except PyError c.Answer}
    (h : exec l c aux outcome w = some (w', y)) :
    (∃ p, c = .delete_scanned p) ∨ c.isLoop = false := by
  cases c with
  | delete_scanned p => exact .inl ⟨p, rfl⟩
  | _ => exact .inr rfl

/-- What one step of a request does to the entries. -/
theorem exec_redisStep {y : Option Scan ⊕ Except PyError c.Answer}
    (h : exec l c aux outcome w = some (w', y)) : RedisStep l c w w' := by
  rcases exec_cases h with ⟨p, rfl⟩ | hc
  · exact LoopStep.redisStep (loopStep_cases h)
  · rcases exec_atomic hc h with ⟨ω, x, -, hx, -⟩ | ⟨ω, x, -, hx, -⟩ | ⟨-, rfl, -⟩
    · exact execute_redisStep hx
    · exact execute_redisStep hx
    · exact RedisStep.of_subset rfl rfl fun e he => he

end Redis

variable [Bson]

/-! ## What the entries and the failures look like -/

/-- An entry of a `GET` has the key of its request and the lifetime of the cache, and the
invalidations that failed are those of writes. -/
structure Stored (w : World) : Prop where
  stamp : ∀ e ∈ w.redis.entries, e.stamp < w.redis.next ∧ e.stored_at ≤ w.now
  cached : ∀ e ∈ w.redis.entries, ∀ key, e.tag.cache_key = some key →
    e.key = key ∧ e.expires = some (e.stored_at + CACHE_TTL * 1000)
  failures : ∀ f ∈ w.failures, f.request.writes = true ∧ f.at_ ≤ w.now

section Stored

variable {l : Request} {g : Ghost} {c : Call} {w w' : World} {aux : Option Scan} {outcome : Outcome}

omit [Bson] in
/-- A key of the cache is no key of the rate limiter. -/
theorem cache_key_ne_rateKey {key : String} (h : l.cache_key = some key) (client : Option String)
    (window : Nat) : key ≠ rateKey client window := by
  rintro rfl
  obtain ⟨p, hp, -, hstarts⟩ := startsWith_cache_key h
  have hrate : ∃ cs, (rateKey client window).toList = 'r' :: cs := by
    unfold rateKey
    simp only [String.toList_append]
    exact ⟨_, rfl⟩
  obtain ⟨cs, hcs⟩ := hrate
  simp only [List.mem_cons, List.not_mem_nil, or_false] at hp
  rcases hp with rfl | rfl | rfl
  · rw [startsWith_of_head_ne (c := 'u') rfl hcs (by decide)] at hstarts
    cases hstarts
  · rw [startsWith_of_head_ne (c := 'p') rfl hcs (by decide)] at hstarts
    cases hstarts
  · rw [startsWith_of_head_ne (c := 's') rfl hcs (by decide)] at hstarts
    cases hstarts

/-- An entry of a `GET` was there, or the `GET` has just stored it. -/
theorem origin_of_cached (hw : Stored w) (hallows : g.allows l c) {e : Entry Value Request}
    (horigin : Origin l c w w' e) {key : String} (hkey : e.tag.cache_key = some key) :
    e ∈ w.redis.entries ∨ ∃ value, c = .setex key CACHE_TTL value ∧
      e = ⟨key, value, some (w.now + CACHE_TTL * 1000), w.redis.next, w.now, l⟩ := by
  cases horigin with
  | kept h => exact .inl h
  | stored key' ttl value hc hnext h =>
    subst hc h
    obtain ⟨hkey', httl, -⟩ := hallows
    rw [hkey] at hkey'
    cases hkey'
    subst httl
    exact .inr ⟨value, rfl, rfl⟩
  | counted key' hc hnext h =>
    subst hc h
    obtain ⟨message, client, window, rfl, -, -⟩ := hallows
    cases hkey
  | changed x hx hc h =>
    obtain ⟨-, -, -, htag⟩ := h
    rw [htag] at hkey
    have hxkey := (hw.cached x hx key hkey).1
    rcases hc with rfl | ⟨ttl, rfl⟩
    · obtain ⟨message, client, window, -, -, hrate⟩ := hallows
      exact absurd (hxkey.symm.trans hrate) (cache_key_ne_rateKey hkey client window)
    · obtain ⟨message, client, window, -, -, hrate, -⟩ := hallows
      exact absurd (hxkey.symm.trans hrate) (cache_key_ne_rateKey hkey client window)

/-- What a step puts there has the key and the lifetime of the cache. -/
theorem exec_stored (hw : Stored w) (hallows : g.allows l c)
    {y : Option Scan ⊕ Except PyError c.Answer} (h : exec l c aux outcome w = some (w', y)) :
    Stored w' := by
  have hredis := exec_redisStep h
  constructor
  · intro e he
    rw [hredis.now]
    have hkept : ∀ x ∈ w.redis.entries, x.stamp < w'.redis.next ∧ x.stored_at ≤ w.now := by
      intro x hx
      obtain ⟨hstamp, hat⟩ := hw.stamp x hx
      exact ⟨Nat.lt_of_lt_of_le hstamp hredis.next, hat⟩
    cases hredis.origin e he with
    | kept h => exact hkept e h
    | stored key ttl value hc hnext h =>
      rw [h]
      exact ⟨hnext, Nat.le_refl _⟩
    | counted key hc hnext h =>
      rw [h]
      exact ⟨hnext, Nat.le_refl _⟩
    | changed x hx hc h =>
      rw [h.2.1, h.2.2.1]
      exact hkept x hx
  -- only setex writes under a key of the cache
  · intro e he key hkey
    rcases origin_of_cached hw hallows (hredis.origin e he) hkey with he | ⟨value, -, rfl⟩
    · exact hw.cached e he key hkey
    · exact ⟨rfl, rfl⟩
  · rw [hredis.now]
    rcases exec_cases h with ⟨p, rfl⟩ | hc
    · rcases (loopStep_cases h).failures with hsame | hadded
      · rw [hsame]
        exact hw.failures
      · rw [hadded]
        intro f hf
        rcases List.mem_append.mp hf with hf | hf
        · exact hw.failures f hf
        · rw [List.mem_singleton.mp hf]
          exact ⟨hallows.1, Nat.le_refl _⟩
    · rcases exec_atomic hc h with ⟨ω, x, -, hx, -⟩ | ⟨ω, x, -, hx, -⟩ | ⟨-, rfl, -⟩
      · rw [(execute_frame hx).failures]
        exact hw.failures
      · rw [(execute_frame hx).failures]
        exact hw.failures
      · exact hw.failures

end Stored

/-! ## Requests in flight -/

/-- The request keeps to the protocol, the users it has seen have ids that were given out, and it
stores what it has just read. -/
structure Informed (db : Db) (task : Task) : Prop where
  protocol : ∃ g, task.prog.Obeys (monitor task.label) (Ended task.label) g ∧
    ∀ id ∈ g.seen, id ∈ db.issued
  reads : ∃ rows, Reads task.label rows task.prog

/-- What holds of the requests and of the cache in every state. -/
structure Consistent (s : State) : Prop where
  known : s.shared.db.Known
  stored : Stored s.shared
  tasks : ∀ task ∈ s.tasks, Informed s.shared.db task

section Consistent

variable {l : Request} {g : Ghost} {c : Call} {w w' : World} {aux : Option Scan} {outcome : Outcome}
  {s s' : State} {a : Action}

omit [Bson] in
theorem Ghost.next_seen_error (e : PyError) : (g.next c (.error e)).seen = g.seen := by
  cases c with
  | find_one coll filter => cases coll <;> rfl
  | _ => rfl

/-- The users that posts and messages name have been given ids. -/
theorem exec_known (hdb : w.db.Known) (hallows : g.allows l c)
    (hseen : ∀ id ∈ g.seen, id ∈ w.db.issued) {y : Option Scan ⊕ Except PyError c.Answer}
    (h : exec l c aux outcome w = some (w', y)) :
    w'.db.Known ∧ (∀ id ∈ w.db.issued, id ∈ w'.db.issued) ∧
      ∀ r, y = .inr r → ∀ id ∈ (g.next c r).seen, id ∈ w'.db.issued := by
  have herror : (∀ id ∈ w.db.issued, id ∈ w'.db.issued) → ∀ e,
      ∀ id ∈ (g.next c (.error e)).seen, id ∈ w'.db.issued := by
    intro hissued e id hid
    rw [Ghost.next_seen_error] at hid
    exact hissued id (hseen id hid)
  rcases exec_cases h with ⟨p, rfl⟩ | hc
  · rw [(loopStep_cases h).db]
    refine ⟨hdb, fun id hid => hid, fun r _ => ?_⟩
    have hne : ∀ filter, Call.delete_scanned p ≠ .find_one .users filter := nofun
    rw [Ghost.next_seen hne]
    exact hseen
  · rcases exec_atomic hc h with ⟨ω, x, -, hx, rfl⟩ | ⟨ω, x, -, hx, rfl⟩ | ⟨-, rfl, rfl⟩
    · refine ⟨execute_known hdb hallows hseen hx, execute_issued hx, fun r hr => ?_⟩
      cases hr
      exact seen_step (execute_issued hx) hseen hx
    · refine ⟨execute_known hdb hallows hseen hx, execute_issued hx, fun r hr => ?_⟩
      cases hr
      exact herror (execute_issued hx) _
    · refine ⟨hdb, fun id hid => hid, fun r hr => ?_⟩
      cases hr
      exact herror (fun id hid => hid) _

theorem Informed.of_issued {db db' : Db} (hissued : ∀ id ∈ db.issued, id ∈ db'.issued) {task : Task}
    (h : Informed db task) : Informed db' task := by
  obtain ⟨g, hobeys, hseen⟩ := h.protocol
  exact ⟨⟨g, hobeys, fun id hid => hissued id (hseen id hid)⟩, h.reads⟩

omit [Bson] in
/-- Time passes, and no entry is of the future. -/
theorem Stored.tick (hw : Stored w) (ms : Nat) : Stored { w with now := w.now + ms } := by
  constructor
  · intro e he
    obtain ⟨hstamp, hat⟩ := hw.stamp e he
    exact ⟨hstamp, Nat.le_add_right_of_le hat⟩
  · exact hw.cached
  · intro f hf
    obtain ⟨hwrites, hat⟩ := hw.failures f hf
    exact ⟨hwrites, Nat.le_add_right_of_le hat⟩

/-- A server without requests, and an empty cache. -/
theorem consistent_init {db : Db} (hdb : db.Known) : Consistent (State.init db) :=
  ⟨hdb, ⟨nofun, nofun, nofun⟩, nofun⟩

/-- Every step keeps what requests and cache satisfy. -/
theorem consistent_step (hs : Consistent s) (h : step s a = some s') : Consistent s' := by
  cases a with
  | request r =>
    cases h
    refine ⟨hs.known, hs.stored, fun task htask => ?_⟩
    rcases List.mem_append.mp htask with htask | htask
    · exact hs.tasks task htask
    · rw [List.mem_singleton.mp htask]
      exact ⟨⟨.start, handle_obeys r, nofun⟩, ⟨none, handle_reads r⟩⟩
  | call i outcome =>
    obtain ⟨l₁, task, l₂, task', c, k, y, hi, htasks, htasks', hprog, hexec, hy⟩ := call_eq_some h
    obtain ⟨⟨g, hobeys, hseen⟩, rows, hreads⟩ := hs.tasks task (List.mem_of_getElem? hi)
    rw [hprog] at hobeys hreads
    obtain ⟨hknown, hissued, hnext⟩ := exec_known hs.known hobeys.1 hseen hexec
    refine ⟨hknown, exec_stored hs.stored hobeys.1 hexec, fun t ht => ?_⟩
    -- ids are only added, so what the other requests have seen stays known
    have hrest : ∀ t ∈ s.tasks, Informed s'.shared.db t :=
      fun t ht => (hs.tasks t ht).of_issued hissued
    rw [htasks] at hrest
    rw [htasks'] at ht
    rcases Lists.mem_middle.mp ht with rfl | ht
    · rcases hy with ⟨sc, -, rfl⟩ | ⟨r, rfl, rfl⟩
      · have hmoved := hrest task (Lists.mem_middle.mpr (.inl rfl))
        exact ⟨hmoved.protocol, hmoved.reads⟩
      · exact ⟨⟨_, hobeys.2 r, hnext r rfl⟩, ⟨_, hreads.2 r⟩⟩
    · exact hrest t (Lists.mem_middle.mpr (.inr ht))
  | finish i =>
    obtain ⟨l₁, task, l₂, r, htasks, -, rfl⟩ := finish_eq_some h
    refine ⟨hs.known, ⟨hs.stored.stamp, hs.stored.cached, hs.stored.failures⟩, fun t ht => ?_⟩
    apply hs.tasks
    rw [htasks]
    exact Lists.mem_middle.mpr (.inr ht)
  | tick ms =>
    cases h
    exact ⟨hs.known, hs.stored.tick ms, hs.tasks⟩

end Consistent

/-! ## Entries that are accounted for -/

/-- The value is what the request would compute now, or the entry of it will be cleared. -/
def Upheld (s : State) (p : String) (r : Request) (value : Value) : Prop :=
  Computes r s.shared.db value ∨ ∃ task ∈ s.tasks, Clears p task

/-- An entry is what its request would be answered, or it will be deleted, or a deletion has failed. -/
inductive Accounted (s : State) (p : String) (e : Entry Value Request) : Prop
  | computed (h : Computes e.tag s.shared.db e.value)
  | pending (task : Task) (htask : task ∈ s.tasks) (h : Pending p e task)
  | failed (f : Failure) (hf : f ∈ s.shared.failures) (hp : f.prefix_ = p)
    (hmark : e.stamp < f.mark) (hat : e.stored_at ≤ f.at_)

/-- **Coherence.** -/
def Coherent (s : State) : Prop :=
  ∀ e ∈ s.shared.redis.entries, e.live s.shared.now = true →
    ∀ p, e.tag.cache_prefix = some p → Accounted s p e

/-- A write of Mongo does not fail. -/
def MongoWrites (s : State) : Action → Prop
  | .call i outcome => ∀ task c, s.tasks[i]? = some task → task.prog.head? = some c →
      c.changesMongo = true → ∃ ω, outcome = .ok ω
  | _ => True

instance (s : State) (a : Action) : Decidable (MongoWrites s a) :=
  match a with
  | .call _ (.ok ω) => isTrue fun _ _ _ _ _ => ⟨ω, rfl⟩
  | .call i (.raises applied ω) =>
    decidable_of_iff
      ((s.tasks[i]?.bind fun task => task.prog.head?).all (fun c => !c.changesMongo) = true) <| by
        rw [Option.all_eq_true]
        constructor
        · intro hall task c hi hhead hc
          have hno := hall c (by rw [hi]; exact hhead)
          rw [hc] at hno
          cases hno
        · intro hnone c hc
          obtain ⟨task, hi, hhead⟩ := Option.bind_eq_some_iff.mp hc
          cases hchanges : c.changesMongo with
          | false => rfl
          | true =>
            obtain ⟨ω', hω'⟩ := hnone task c hi hhead hchanges
            cases hω'
  | .request _ | .finish _ | .tick _ => isTrue trivial

/-- An answer that is stored is what the request would compute now, or a request in flight has yet
to begin to clear the entries of its prefix. -/
def Timely (s : State) : Action → Prop
  | .call i _ => ∀ task key ttl value p, s.tasks[i]? = some task →
      task.prog.head? = some (.setex key ttl value) → task.label.cache_prefix = some p →
        Upheld s p task.label value
  | _ => True

section Steps

variable {s s' : State} {a : Action} {p : String} {e : Entry Value Request}

theorem Upheld.accounted (h : Upheld s p e.tag e.value) : Accounted s p e := by
  rcases h with hcomputes | ⟨task, htask, hclears⟩
  · exact .computed hcomputes
  · exact .pending task htask (hclears.pending e)

omit [Bson] in
/-- What has a prefix has a key. -/
theorem cache_key_of_prefix {r : Request} (hp : r.cache_prefix = some p) :
    ∃ key, r.cache_key = some key := by
  cases r with
  | get_users login min_age => exact ⟨_, rfl⟩
  | get_posts author_id tag => exact ⟨_, rfl⟩
  | posts_by_users => exact ⟨_, rfl⟩
  | _ => cases hp

omit [Bson] in
/-- The entry of a `GET` begins with the prefix of its request. -/
theorem Stored.startsWith {w : World} (hw : Stored w) (he : e ∈ w.redis.entries)
    (hp : e.tag.cache_prefix = some p) : startsWith p e.key = true := by
  obtain ⟨key, hkey⟩ := cache_key_of_prefix hp
  obtain ⟨p', -, hp', hstarts⟩ := startsWith_cache_key hkey
  rw [hp] at hp'
  cases hp'
  rw [(hw.cached e he key hkey).1]
  exact hstarts

omit [Bson] in
/-- A step of the loop: the entry is still to be deleted, or the failure of the loop is logged. -/
theorem LoopStep.pending {l : Request} {w w' : World} {aux : Option Scan}
    {y : Option Scan ⊕ Except PyError Unit} (hw : Stored w)
    (h : LoopStep l p (aux.getD (Scan.begin_ w.redis)) w w' y) (he : e ∈ w'.redis.entries)
    (hlive : e.live w.now = true) (hp : e.tag.cache_prefix = some p)
    (hcovers : ∀ sc, aux = some sc → sc.Covers e) :
    (∃ sc, y = .inl (some sc) ∧ sc.Covers e) ∨ ⟨l, p, w.redis.next, w.now⟩ ∈ w'.failures := by
  have hcovered : (aux.getD (Scan.begin_ w.redis)).Covers e := by
    cases aux with
    | none => exact Scan.covers_begin (hw.stamp e (h.mem he)).1
    | some sc => exact hcovers sc rfl
  cases h with
  | del key rest hbatch =>
    exact .inl ⟨_, rfl, Scan.Covers.tail hbatch (Store.mem_del.mp he).2 hcovered⟩
  | scan keys last hbatch hlast hadmits =>
    exact .inl ⟨_, rfl, Scan.Covers.page hadmits hbatch he hlive (hw.startsWith he hp) hcovered⟩
  | done hbatch hlast => exact absurd hcovered (Scan.not_covers_done hbatch hlast e)
  | raises w₁ hw₁ =>
    right
    rcases hw₁ with rfl | ⟨key, -, rfl⟩ <;> exact List.mem_append_right _ List.mem_cons_self

omit [Bson] in
/-- The request that has moved, and the others. -/
theorem mem_moved {l₁ l₂ : List Task} {task task' : Task} (htasks : s.tasks = l₁ ++ task :: l₂)
    (htasks' : s'.tasks = l₁ ++ task' :: l₂) :
    task' ∈ s'.tasks ∧ ∀ t ∈ s.tasks, t = task ∨ t ∈ s'.tasks := by
  rw [htasks, htasks']
  refine ⟨Lists.mem_middle.mpr (.inl rfl), fun t ht => ?_⟩
  rcases Lists.mem_middle.mp ht with rfl | ht
  · exact .inl rfl
  · exact .inr (Lists.mem_middle.mpr (.inr ht))

/-- A call other than the loop leaves an answer up to date, or makes its request bound to clear the
entry. -/
theorem upheld_call {i : Nat} {outcome : Outcome} (hs : Consistent s)
    (hmongo : MongoWrites s (.call i outcome)) (h : step s (.call i outcome) = some s')
    {task : Task} (hi : s.tasks[i]? = some task) {c : Call} (hc : task.prog.head? = some c)
    (hloop : c.isLoop = false) {r : Request} (hp : r.cache_prefix = some p) {value : Value}
    (hvalue : Upheld s p r value) : Upheld s' p r value := by
  obtain ⟨l₁, task₁, l₂, task', c₁, k, y, hi₁, htasks, htasks', hprog, hexec, hy⟩ := call_eq_some h
  cases hi.symm.trans hi₁
  rw [hprog] at hc
  cases hc
  obtain ⟨hmoved, hother⟩ := mem_moved htasks htasks'
  rcases hy with ⟨sc, rfl, -⟩ | ⟨answer, rfl, rfl⟩
  · rw [isLoop_of_exec_inl hexec] at hloop
    cases hloop
  · have hne : c ≠ .delete_scanned p := by
      rintro rfl
      cases hloop
    rcases hvalue with hcomputes | ⟨t, ht, hclears⟩
    · by_cases hdb : c.changesMongo = false
      · have hsame : s'.shared.db = s.shared.db := by
          rcases exec_atomic hloop hexec with ⟨ω, x, -, hx, -⟩ | ⟨ω, x, -, hx, -⟩ | ⟨-, heq, -⟩
          · exact (execute_frame hx).db hdb
          · exact (execute_frame hx).db hdb
          · rw [heq]
        left
        rw [hsame]
        exact hcomputes
      · -- the write has been answered, so its request goes on to the invalidation it owes
        obtain ⟨ω, rfl⟩ := hmongo task c hi (by rw [hprog]; rfl) (Bool.not_eq_false _ ▸ hdb)
        rcases exec_atomic hloop hexec with ⟨ω', x, -, hx, hanswer⟩ | ⟨ω', x, hfail, -⟩ | ⟨⟨ω', hfail⟩, -⟩
        · cases hanswer
          obtain ⟨g, hobeys, -⟩ := (hs.tasks task (List.mem_of_getElem? hi)).protocol
          rw [hprog] at hobeys
          rcases computes_or_owed hs.known hp (g := g) hx hcomputes with hstill | howed
          · exact .inl hstill
          · exact .inr ⟨_, hmoved, clears_of_will (will_of_owed (hobeys.2 answer) howed) _⟩
        · cases hfail
        · cases hfail
    · right
      rcases hother t ht with rfl | ht'
      · have hwill := hclears.will
        rw [hprog] at hwill
        exact ⟨_, hmoved, clears_of_will (hwill.answer hne answer) _⟩
      · exact ⟨t, ht', hclears⟩

/-- A step of a request leaves an entry accounted for. -/
theorem accounted_call {i : Nat} {outcome : Outcome} (hs : Consistent s)
    (hmongo : MongoWrites s (.call i outcome)) (h : step s (.call i outcome) = some s')
    (he : e ∈ s'.shared.redis.entries) (hlive : e.live s.shared.now = true)
    (hp : e.tag.cache_prefix = some p) (haccounted : Accounted s p e) : Accounted s' p e := by
  obtain ⟨l₁, task, l₂, task', c, k, y, hi, htasks, htasks', hprog, hexec, hy⟩ := call_eq_some h
  obtain ⟨hmoved, hother⟩ := mem_moved htasks htasks'
  have hhead : task.prog.head? = some c := by
    rw [hprog]
    rfl
  have hfailures : ∀ f ∈ s.shared.failures, f ∈ s'.shared.failures := by
    rcases exec_cases hexec with ⟨p', rfl⟩ | hloop
    · rcases (loopStep_cases hexec).failures with hsame | hadded
      · rw [hsame]
        exact fun f hf => hf
      · rw [hadded]
        exact fun f hf => List.mem_append_left _ hf
    · rcases exec_atomic hloop hexec with ⟨ω, x, -, hx, -⟩ | ⟨ω, x, -, hx, -⟩ | ⟨-, heq, -⟩
      · rw [(execute_frame hx).failures]
        exact fun f hf => hf
      · rw [(execute_frame hx).failures]
        exact fun f hf => hf
      · rw [heq]
        exact fun f hf => hf
  cases haccounted with
  | computed hcomputes =>
    rcases exec_cases hexec with ⟨p', rfl⟩ | hloop
    · apply Accounted.computed
      rw [(loopStep_cases hexec).db]
      exact hcomputes
    · exact (upheld_call hs hmongo h hi hhead hloop hp (.inl hcomputes)).accounted
  | failed f hf hprefix_ hmark hat => exact .failed f (hfailures f hf) hprefix_ hmark hat
  | pending t ht hpending =>
    rcases hother t ht with rfl | ht'
    · by_cases hc : c = .delete_scanned p
      · subst hc
        rcases hpending with ⟨-, hcovers⟩ | hlater
        · rcases LoopStep.pending hs.stored (loopStep_cases hexec) he hlive hp hcovers with
            ⟨sc, rfl, hsc⟩ | hfailed
          · rcases hy with ⟨sc', hsc', rfl⟩ | ⟨answer, hanswer, -⟩
            · cases hsc'
              refine .pending _ hmoved (.inl ⟨hhead, fun sc' hsc' => ?_⟩)
              cases hsc'
              exact hsc
            · cases hanswer
          · -- the loop has failed after the entry was stored
            have hkept : e ∈ s.shared.redis.entries := (loopStep_cases hexec).mem he
            obtain ⟨hstamp, hat⟩ := hs.stored.stamp e hkept
            exact .failed _ hfailed rfl hstamp hat
        · rcases hy with ⟨sc, -, rfl⟩ | ⟨answer, -, rfl⟩
          · exact .pending _ hmoved (.inr hlater)
          · rw [hprog] at hlater
            exact .pending _ hmoved ((clears_of_will (hlater answer) _).pending e)
      · have hwill := hpending.will
        rw [hprog] at hwill
        rcases hy with ⟨sc, -, rfl⟩ | ⟨answer, -, rfl⟩
        · refine .pending _ hmoved (.inr ?_)
          show t.prog.Later (.delete_scanned p)
          rw [hprog]
          exact hwill.answer hc
        · exact .pending _ hmoved ((clears_of_will (hwill.answer hc answer) _).pending e)
    · exact .pending t ht' hpending

omit [Bson] in
/-- Time only ends lives. -/
theorem live_of_le {now now' : Nat} (h : now ≤ now') (hlive : e.live now' = true) :
    e.live now = true := by
  unfold Entry.live at hlive ⊢
  cases he : e.expires with
  | none => rfl
  | some t =>
    rw [he] at hlive
    have hlt : now' < t := decide_eq_true_eq.mp hlive
    exact decide_eq_true (by omega)

/-- **The step.** -/
theorem coherent_step (hs : Consistent s) (hcoherent : Coherent s) (hmongo : MongoWrites s a)
    (htimely : Timely s a) (h : step s a = some s') : Coherent s' := by
  cases a with
  | request r =>
    cases h
    intro e he hlive p hp
    cases hcoherent e he hlive p hp with
    | computed hcomputes => exact .computed hcomputes
    | pending t ht hpending => exact .pending t (List.mem_append_left _ ht) hpending
    | failed f hf hprefix_ hmark hat => exact .failed f hf hprefix_ hmark hat
  | call i outcome =>
    intro e he hlive p hp
    obtain ⟨l₁, task, l₂, task', c, k, y, hi, htasks, htasks', hprog, hexec, hy⟩ := call_eq_some h
    have hredis := exec_redisStep hexec
    rw [hredis.now] at hlive
    obtain ⟨g, hobeys, -⟩ := (hs.tasks task (List.mem_of_getElem? hi)).protocol
    rw [hprog] at hobeys
    obtain ⟨key, hkey⟩ := cache_key_of_prefix hp
    rcases origin_of_cached hs.stored hobeys.1 (hredis.origin e he) hkey with hkept | ⟨value, rfl, rfl⟩
    · exact accounted_call hs hmongo h he hlive hp (hcoherent e hkept hlive p hp)
    · have hhead : task.prog.head? = some (.setex key CACHE_TTL value) := by
        rw [hprog]
        rfl
      exact (upheld_call hs hmongo h hi hhead rfl hp
        (htimely task key CACHE_TTL value p hi hhead hp)).accounted
  | finish i =>
    obtain ⟨l₁, task, l₂, r, htasks, hended, rfl⟩ := finish_eq_some h
    intro e he hlive p hp
    cases hcoherent e he hlive p hp with
    | computed hcomputes => exact .computed hcomputes
    | pending t ht hpending =>
      rw [htasks] at ht
      rcases Lists.mem_middle.mp ht with rfl | ht
      · -- a request that has ended has nothing left to do
        exact absurd hpending.will (Pool.not_will_of_outcome hended _)
      · exact .pending t ht hpending
    | failed f hf hprefix_ hmark hat => exact .failed f hf hprefix_ hmark hat
  | tick ms =>
    cases h
    intro e he hlive p hp
    cases hcoherent e he (live_of_le (Nat.le_add_right _ ms) hlive) p hp with
    | computed hcomputes => exact .computed hcomputes
    | pending t ht hpending => exact .pending t ht hpending
    | failed f hf hprefix_ hmark hat => exact .failed f hf hprefix_ hmark hat

end Steps

end SocialNetwork.MongoApi

import SocialNetwork.MongoApi.Coherence

/-!
# What a read is answered from

A request that reads answers with the rows of its query or with what it has found in the cache, and
stores only the former (`handle_sources`).
-/

namespace SocialNetwork.MongoApi

open DocStore KeyValue

variable [Bson]

/-! ## Queries -/

/-- The query of a request that reads. -/
def Request.read? : Request → Option Query
  | get_messages user_id => (oid user_id).toOption.map fun user =>
      .find .messages (.any [.eq "from_user_id" (.oid user), .eq "to_user_id" (.oid user)])
        [("created_at", true)]
  | r => r.query?

/-- The headers of an answer that was not cached. -/
def Request.missHeaders (r : Request) : List (String × String) :=
  if r.cache_key.isSome then [("X-Cache", "MISS")] else []

/-! ## The monitor -/

/-- Where the answer comes from: nothing yet, the rows of the query, or a value of the cache. -/
inductive Source
  | unread
  | rows (docs : List Doc)
  | hit (value : Value)

namespace Source

def allows (l : Request) (g : Source) : Call → Prop
  | .query q => l.writes = false → l.read? = some q
  | .get key => l.writes = false → l.cache_key = some key
  | .setex key _ value => l.cache_key = some key ∧
      ∃ docs body, g = rows docs ∧ l.encode docs = .ok body ∧ value = json_dumps body
  | _ => True

def next (g : Source) : (c : Call) → Except PyError c.Answer → Source
  | .query _, .ok docs => rows docs
  | .get _, .ok (some value) => hit value
  | _, _ => g

end Source

def sourceMonitor (l : Request) : Prog.Monitor Call Call.Answer PyError Source where
  ok := Source.allows l
  next := Source.next

/-- A read is answered from its source. -/
def Sourced (l : Request) (r : Except PyError Reply) (g : Source) : Prop :=
  l.writes = false → ∀ reply, r = .ok reply →
    (∃ docs, g = .rows docs ∧ l.encode docs = .ok reply.body ∧ reply.headers = l.missHeaders) ∨
      ∃ value, g = .hit value ∧ json_loads value = some reply.body ∧
        reply.headers = [("X-Cache", "HIT")]

/-! ## The endpoints -/

section Endpoints

variable {l : Request} {g : Source}

theorem sourced_error (e : PyError) : Sourced l (.error e) g := fun _ _ h => nomatch h

/-- A write reads nothing that it stores. -/
theorem sources_of_writes (hl : l.writes = true) {g₀ : Ghost} {prog : Api Reply}
    (h : prog.Obeys (monitor l) (Ended l) g₀) : prog.Obeys (sourceMonitor l) (Sourced l) g := by
  have hnone : l.writes ≠ false := by
    rw [hl]
    exact nofun
  have hkey : l.cache_key = none := by
    cases l with
    | get_users login min_age => cases hl
    | get_posts author_id tag => cases hl
    | posts_by_users => cases hl
    | _ => rfl
  induction prog generalizing g₀ g with
  | ret a => exact fun hreads => absurd hreads hnone
  | raise e => exact sourced_error e
  | call c k ih =>
    refine ⟨?_, fun r => ih r (h.2 r)⟩
    cases c with
    | query q => exact fun hreads => absurd hreads hnone
    | get key => exact fun hreads => absurd hreads hnone
    | setex key ttl value =>
      have hstores : l.cache_key = some key := h.1.1
      rw [hkey] at hstores
      cases hstores
    | _ => trivial

/-- A `GET` that is cached looks its key up, and answers with what it finds. -/
theorem sources_cache_get {key : String} (hkey : l.cache_key = some key) {miss : Api Reply}
    (hmiss : ∀ g, miss.Obeys (sourceMonitor l) (Sourced l) g) :
    Prog.Obeys (sourceMonitor l) (Sourced l) g (cache_get key >>= fun v =>
      match v with
      | some cached => pure ⟨[("X-Cache", "HIT")], cached⟩
      | none => miss) := by
  refine Prog.obeys_bind.mpr (Prog.obeys_tryCatch.mpr (Prog.obeys_bind.mpr
    (Prog.obeys_perform.mpr ⟨fun _ => hkey, fun r => ?_⟩)))
  -- a failed lookup, and a text that cannot be loaded, count as a miss
  cases r with
  | error e => exact hmiss _
  | ok v =>
    have hcases : ∀ v : Option Value, Prog.Obeys (sourceMonitor l) (Sourced l)
        (g.next (.get key) (.ok v))
        (match v.bind json_loads with
          | some cached => pure ⟨[("X-Cache", "HIT")], cached⟩
          | none => miss) := by
      intro v
      cases v with
      | none => exact hmiss _
      | some value =>
        cases hloads : json_loads value with
        | none =>
          rw [Option.bind_some, hloads]
          exact hmiss _
        | some cached =>
          rw [Option.bind_some, hloads]
          intro _ reply hreply
          cases hreply
          exact .inr ⟨value, rfl, hloads, rfl⟩
    exact hcases v

/-- What was read is stored and sent. -/
theorem sources_cache_set {key : String} (hkey : l.cache_key = some key) {docs : List Doc}
    {body : Value} (hbody : l.encode docs = .ok body) :
    Prog.Obeys (sourceMonitor l) (Sourced l) (.rows docs)
      (cache_set key body >>= fun _ => pure ⟨[("X-Cache", "MISS")], body⟩) := by
  have hanswer : Sourced l (.ok ⟨[("X-Cache", "MISS")], body⟩) (.rows docs) := by
    intro _ reply hreply
    cases hreply
    refine .inl ⟨docs, rfl, hbody, ?_⟩
    rw [Request.missHeaders, hkey]
    rfl
  refine Prog.obeys_bind.mpr (Prog.obeys_tryCatch.mpr (Prog.obeys_perform.mpr
    ⟨⟨hkey, docs, body, rfl, hbody, rfl⟩, fun r => ?_⟩))
  cases r with
  | error e => exact hanswer
  | ok u => exact hanswer

/-- The part of a listing that follows a miss. -/
theorem sources_listDocs {key : String} {coll : Coll} {filter : Filter}
    {sort : List (String × Bool)} (hkey : l.cache_key = some key)
    (hread : l.read? = some (.find coll filter sort))
    (hencode : ∀ rows, l.encode rows = (rows.mapM to_json).map listOf) :
    Prog.Obeys (sourceMonitor l) (Sourced l) g (do
      let rows ← find coll filter sort
      let docs ← liftExcept (rows.mapM to_json)
      cache_set key (listOf docs)
      pure ⟨[("X-Cache", "MISS")], listOf docs⟩) := by
  refine Prog.obeys_perform_bind.mpr
    ⟨fun _ => hread, fun (rows : List Doc) => ?_, fun e => sourced_error e⟩
  have hbody := hencode rows
  cases hdocs : rows.mapM to_json with
  | error e => exact sourced_error e
  | ok docs =>
    rw [hdocs] at hbody
    exact sources_cache_set hkey hbody

/-- **Sources.** -/
theorem handle_sources (r : Request) :
    (handle r).Obeys (sourceMonitor r) (Sourced r) .unread := by
  cases r with
  | get_users login min_age =>
    exact sources_cache_get rfl fun g => sources_listDocs rfl rfl fun rows => rfl
  | get_posts author_id tag =>
    refine sources_cache_get rfl fun g => ?_
    show Prog.Obeys _ _ _ (liftExcept (optionalOid author_id) >>= _)
    cases hauthor : optionalOid author_id with
    | error e => exact sourced_error e
    | ok author =>
      have hread : (Request.get_posts author_id tag).read? =
          some (.find .posts (postsQuery author tag) [("created_at", true)]) := by
        simp only [Request.read?, Request.query?, hauthor]
      exact sources_listDocs rfl hread fun rows => rfl
  | posts_by_users =>
    refine sources_cache_get rfl fun g => ?_
    refine Prog.obeys_perform_bind.mpr
      ⟨fun _ => rfl, fun (rows : List Doc) => ?_, fun e => sourced_error e⟩
    exact sources_cache_set rfl rfl
  | get_messages user_id =>
    show Prog.Obeys _ _ _ (liftExcept (oid user_id) >>= _)
    cases huser : oid user_id with
    | error e => exact sourced_error e
    | ok user =>
      have hread : (Request.get_messages user_id).read? = some (.find .messages
          (.any [.eq "from_user_id" (.oid user), .eq "to_user_id" (.oid user)])
          [("created_at", true)]) := by
        simp only [Request.read?, huser]
        rfl
      refine Prog.obeys_perform_bind.mpr
        ⟨fun _ => hread, fun (rows : List Doc) => ?_, fun e => sourced_error e⟩
      -- GET /messages is not cached: its answer is what it has just read
      cases hdocs : rows.mapM to_json with
      | error e => exact sourced_error e
      | ok docs =>
        intro _ reply hreply
        cases hreply
        refine .inl ⟨rows, rfl, ?_, rfl⟩
        show (rows.mapM to_json).map listOf = _
        rw [hdocs]
        rfl
  | _ => exact sources_of_writes rfl (handle_obeys _)

end Endpoints

end SocialNetwork.MongoApi

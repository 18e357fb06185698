import SocialNetwork.MongoApi.Service

/-!
# The protocol of a request

`monitor` follows the calls of one request: the rows a `GET` has read, the users a write has
found, the invalidations that its write has made necessary and it has not made yet (`owed`), and
how far the rate limiter is. `handle_obeys` says that every endpoint keeps to it: it caches what it
has read, it writes only documents and updates of its own form, for users it has found, it counts
itself at most once and is refused just if the count is too high, and it ends with nothing owed.
-/

namespace SocialNetwork.MongoApi

open DocStore KeyValue

/-! ## The rate limiter -/

/-- The counter of one address in one window. -/
def rateKey (client : Option String) (window : Nat) : String :=
  "rate_limit:" ++ "create_message" ++ ":" ++ client.getD "unknown" ++ ":" ++ toString window

/-- What `X-RateLimit-Remaining` says; it never falls below zero. -/
def remaining (current : Int) : Int := max (RATE_LIMIT - current) 0

def rateHeaders (window : Nat) (current : Int) : List (String × String) :=
  [("X-RateLimit-Limit", toString RATE_LIMIT), ("X-RateLimit-Remaining", toString (remaining current)),
    ("X-RateLimit-Reset", toString ((window + 1) * RATE_WINDOW))]

/-- The exception is the answer 429. -/
def PyError.limited : PyError → Prop
  | .httpException status_code _ _ => status_code = 429
  | _ => False

/-! ## Ghost state -/

/-- How far the rate limiter is with a request: it has read the clock, it has counted the request,
or the answer to its `INCR` is lost. -/
inductive Phase
  | start
  | read (window : Nat)
  | counted (window : Nat) (current : Int)
  | lost

structure Ghost where
  /-- The prefixes of answers that the request may have changed and has not invalidated. -/
  owed : List String
  /-- The rows of the query. -/
  rows : Option (List Doc)
  /-- Users that were there. -/
  seen : List ObjectId
  phase : Phase
  /-- The exceptions of calls that are not caught. -/
  failed : List PyError

namespace Ghost

def start : Ghost := ⟨[], none, [], .start, []⟩

/-- The count is too high. -/
def limited (g : Ghost) : Prop :=
  match g.phase with
  | .counted _ current => RATE_LIMIT < current
  | _ => False

def fail (g : Ghost) (e : PyError) : Ghost := { g with failed := e :: g.failed }

/-- The keys under one prefix are gone. -/
def pay (g : Ghost) (prefix_ : String) : Ghost :=
  { g with owed := g.owed.filter fun p => p ≠ prefix_ }

def count (g : Ghost) (current : Int) : Ghost :=
  match g.phase with
  | .read window => { g with phase := .counted window current }
  | _ => g

end Ghost

/-- The prefixes of the answers that a call may change. -/
def Call.changes : Call → List String
  | .insert_one .users _ => ["users:"]
  | .update_one .users _ _ | .delete_one .users _ => ["users:", "stats:"]
  | .insert_one .posts _ | .update_one .posts _ _ | .delete_one .posts _ => ["posts:", "stats:"]
  | _ => []

/-- A write owes the prefixes of what it changes. -/
def Ghost.owe (g : Ghost) (c : Call) : Ghost := { g with owed := g.owed ++ c.changes }

/-- The id of a query by `_id`. -/
def idOf : Filter → List ObjectId
  | .all [.eq "_id" (.oid id)] => [id]
  | _ => []

/-- What the answer of a call adds to the record. -/
def Ghost.next (g : Ghost) : (c : Call) → Except PyError c.Answer → Ghost
  | .query _, .ok rows => { g with rows := some rows }
  | .find_one .users filter, .ok (some _) => { g with seen := idOf filter ++ g.seen }
  | .insert_one coll doc, .ok _ => g.owe (.insert_one coll doc)
  | .update_one coll filter update, .ok (n : Nat) =>
    if n = 0 then g else g.owe (.update_one coll filter update)
  | .delete_one coll filter, .ok (n : Nat) =>
    if n = 0 then g else g.owe (.delete_one coll filter)
  | .delete_scanned prefix_, _ => g.pay prefix_
  | .time, .ok (now : Nat) => { g with phase := .read (now / (RATE_WINDOW * 1000)) }
  | .incr _, .ok (current : Int) => g.count current
  | .incr _, .error e => { g.fail e with phase := .lost }
  | .get _, .error _ | .setex _ _ _, .error _ => g
  | _, .error e => g.fail e
  | _, .ok _ => g

theorem Ghost.phase_oweIf (g : Ghost) (c : Call) (n : Nat) :
    (if n = 0 then g else g.owe c).phase = g.phase := by
  split_ifs <;> rfl

theorem Ghost.failed_oweIf (g : Ghost) (c : Call) (n : Nat) :
    (if n = 0 then g else g.owe c).failed = g.failed := by
  split_ifs <;> rfl

theorem Ghost.seen_oweIf (g : Ghost) (c : Call) (n : Nat) :
    (if n = 0 then g else g.owe c).seen = g.seen := by
  split_ifs <;> rfl

/-- Only the clock and the `INCR` change how far the limiter is. -/
theorem Ghost.next_phase (g : Ghost) {c : Call} (hincr : ∀ key, c ≠ .incr key) (htime : c ≠ .time)
    (r : Except PyError c.Answer) : (g.next c r).phase = g.phase := by
  cases c with
  | incr key => exact absurd rfl (hincr key)
  | time => exact absurd rfl htime
  | find_one coll filter =>
    cases coll with
    | users =>
      rcases r with e | _ | doc <;> rfl
    | _ => cases r <;> rfl
  | update_one coll filter update =>
    cases r with
    | error e => rfl
    | ok n => exact g.phase_oweIf _ n
  | delete_one coll filter =>
    cases r with
    | error e => rfl
    | ok n => exact g.phase_oweIf _ n
  | _ => cases r <;> rfl

/-- The exceptions that are kept are exceptions of calls. -/
theorem Ghost.next_failed (g : Ghost) {c : Call} (r : Except PyError c.Answer) :
    ∀ e ∈ (g.next c r).failed, e ∈ g.failed ∨ r = .error e := by
  have hkeep : ∀ g' : Ghost, g'.failed = g.failed → ∀ e ∈ g'.failed, e ∈ g.failed ∨ r = .error e := by
    intro g' heq e he
    rw [heq] at he
    exact .inl he
  cases r with
  | error e' =>
    have hfail : ∀ g' : Ghost, g'.failed = e' :: g.failed → ∀ e ∈ g'.failed,
        e ∈ g.failed ∨ (.error e' : Except PyError c.Answer) = .error e := by
      intro g' heq e he
      rw [heq] at he
      rcases List.mem_cons.mp he with rfl | he
      · exact .inr rfl
      · exact .inl he
    cases c with
    | find_one coll filter => cases coll <;> exact hfail _ rfl
    -- the failures of the cache are swallowed
    | get key => exact hkeep _ rfl
    | setex key ttl value => exact hkeep _ rfl
    | delete_scanned prefix_ => exact hkeep _ rfl
    | _ => exact hfail _ rfl
  | ok a =>
    apply hkeep
    cases c with
    | find_one coll filter =>
      cases coll with
      | users => cases a <;> rfl
      | _ => rfl
    | update_one coll filter update => exact g.failed_oweIf _ a
    | delete_one coll filter => exact g.failed_oweIf _ a
    | incr key =>
      show (g.count a).failed = g.failed
      unfold Ghost.count
      split <;> rfl
    | _ => rfl

variable [Bson]

/-! ## The calls a request may make -/

/-- The document of a post. -/
def postDoc (author : ObjectId) (post : PostCreate) (created_at : Nat) : Doc :=
  [("author_id", .oid author), ("content", .str post.content), ("tags", strings post.tags),
    ("likes", .arr []), ("comments", .arr []), ("created_at", .date created_at)]

/-- The document that `create_message` inserts. -/
def messageDoc (from_ to_ : ObjectId) (message : MessageCreate) (created_at : Nat) : Doc :=
  [("from_user_id", .oid from_), ("to_user_id", .oid to_), ("text", .str message.text),
    ("is_read", .bool false), ("created_at", .date created_at)]

/-- The comment that `add_comment` pushes. -/
def commentOf (user : ObjectId) (text : String) (created_at : Nat) : Value :=
  .obj [("user_id", .oid user), ("text", .str text), ("created_at", .date created_at)]

/-- The updates of posts. -/
inductive PostUpdate : Update → Prop
  | like (user : ObjectId) : PostUpdate { addToSet := [("likes", .oid user)] }
  | unlike (user : ObjectId) : PostUpdate { pull := [("likes", .oid user)] }
  | comment (user : ObjectId) (text : String) (created_at : Nat) :
    PostUpdate { push := [("comments", commentOf user text created_at)] }

/-- The calls that a request may make after what it has been told. -/
def Ghost.allows (l : Request) (g : Ghost) : Call → Prop
  | .query q => l.cache_key.isSome → l.query? = some q
  | .insert_one .users doc => ∃ (user : UserCreate) (created_at : Nat), l = .create_user user ∧
      doc = user.model_dump ++ [("created_at", .date created_at)]
  | .insert_one .posts doc => ∃ author ∈ g.seen, ∃ post created_at, doc = postDoc author post created_at
  | .insert_one .messages doc => ∃ from_ ∈ g.seen, ∃ to_ ∈ g.seen, ∃ message created_at,
      doc = messageDoc from_ to_ message created_at
  | .update_one .users _ update => ∃ data : UserUpdate, update = { set := data.update_data }
  | .update_one .posts _ update => PostUpdate update
  | .update_one .messages _ update => update = { set := [("is_read", .bool true)] }
  | .delete_one coll _ => coll ≠ .posts
  | .setex key ttl value => l.cache_key = some key ∧ ttl = CACHE_TTL ∧
      ∃ rows body, g.rows = some rows ∧ l.encode rows = .ok body ∧ value = json_dumps body
  | .delete_scanned prefix_ => l.writes = true ∧ prefix_ ∈ ["users:", "posts:", "stats:", "messages:"]
  | .time => g.phase = .start
  | .incr key => ∃ message client window, l = .create_message message client ∧
      g.phase = .read window ∧ key = rateKey client window
  | .expire key ttl => ∃ message client window, l = .create_message message client ∧
      g.phase = .counted window 1 ∧ key = rateKey client window ∧ ttl = RATE_WINDOW
  | _ => True

/-- The calls and the record, as a monitor of the handlers. -/
def monitor (l : Request) : Prog.Monitor Call Call.Answer PyError Ghost where
  ok := Ghost.allows l
  next := Ghost.next

/-- A request ends with nothing owed. It is refused just if it has been counted too high, unless a
call has failed, and a message that is created carries the headers of its count. -/
def Ended (l : Request) (r : Except PyError Reply) (g : Ghost) : Prop :=
  g.owed = [] ∧
    match r with
    | .ok reply => ¬ g.limited ∧ ∀ message client, l = .create_message message client →
        ∃ window current, g.phase = .counted window current ∧ reply.headers = rateHeaders window current
    | .error e => (e ∈ g.failed ∧ ¬ g.limited) ∨ (e.limited ↔ g.limited)

/-- The requests that are counted. -/
def Request.isCounted : Request → Bool
  | create_message _ _ => true
  | _ => false

/-- Nothing is owed, and the count is not too high. -/
def Ghost.Quiet (g : Ghost) : Prop := g.owed = [] ∧ ¬ g.limited

/-! ## The pieces of the endpoints -/

section Pieces

variable {l : Request} {g : Ghost} {α β : Type}

omit [Bson] in
/-- A failure of the server may end a request. -/
theorem ended_failed (hquiet : g.Quiet) (e : PyError) : Ended l (.error e) (g.fail e) :=
  ⟨hquiet.1, .inl ⟨List.mem_cons_self, hquiet.2⟩⟩

omit [Bson] in
theorem ended_raised (hquiet : g.Quiet) {e : PyError} (he : ¬ e.limited) : Ended l (.error e) g :=
  ⟨hquiet.1, .inr (iff_of_false he hquiet.2)⟩

omit [Bson] in
/-- Another status than that of the rate limiter. -/
theorem ended_status (hquiet : g.Quiet) {status_code : Nat} {detail : String}
    {headers : List (String × String)} (h : status_code ≠ 429) :
    Ended l (.error (.httpException status_code detail headers)) g := ended_raised hquiet h

omit [Bson] in
/-- The reply of a request that is not counted. -/
theorem ended_reply (hquiet : g.Quiet) (hl : l.isCounted = false) (reply : Reply) :
    Ended l (.ok reply) g := by
  refine ⟨hquiet.1, hquiet.2, fun message client h => ?_⟩
  rw [h] at hl
  cases hl

/-- What is computed without a call. -/
theorem obeys_liftExcept {x : Except PyError α} {f : α → Api Reply} (hquiet : g.Quiet)
    (he : ∀ e, x = .error e → ¬ e.limited)
    (hok : ∀ a, x = .ok a → (f a).Obeys (monitor l) (Ended l) g) :
    Prog.Obeys (monitor l) (Ended l) g (liftExcept x >>= f) := by
  cases x with
  | ok a => exact hok a rfl
  | error e => exact ended_raised hquiet (he e rfl)

/-- A refused id is answered 400, not 429. -/
theorem oid_error {value : String} {e : PyError} (h : oid value = .error e) : ¬ e.limited := by
  unfold oid at h
  split at h
  · cases h
  · rw [← Except.error.inj h]
    show ¬ (400 : Nat) = 429
    omega

theorem obeys_oid {value : String} {f : ObjectId → Api Reply} (hquiet : g.Quiet)
    (hok : ∀ id, (f id).Obeys (monitor l) (Ended l) g) :
    Prog.Obeys (monitor l) (Ended l) g (liftExcept (oid value) >>= f) :=
  obeys_liftExcept hquiet (fun _ => oid_error) fun id _ => hok id

/-- The cache may be asked at any time; its failure is caught. -/
theorem obeys_cache_get {Q : Except PyError β → Ghost → Prop} {key : String}
    {f : Option Value → Api β} (h : ∀ v, (f v).Obeys (monitor l) Q g) :
    Prog.Obeys (monitor l) Q g (cache_get key >>= f) := by
  refine Prog.obeys_bind.mpr (Prog.obeys_tryCatch.mpr (Prog.obeys_bind.mpr
    (Prog.obeys_perform.mpr ⟨trivial, fun r => ?_⟩)))
  cases r with
  | error e => exact h none
  | ok v => exact h _

/-- A `GET` caches what it makes of the rows it has read. -/
theorem obeys_cache_set {Q : Except PyError β → Ghost → Prop} {key : String} {rows : List Doc}
    {body : Value} {f : Unit → Api β} (hkey : l.cache_key = some key) (hrows : g.rows = some rows)
    (hbody : l.encode rows = .ok body) (h : (f ()).Obeys (monitor l) Q g) :
    Prog.Obeys (monitor l) Q g (cache_set key body >>= f) := by
  refine Prog.obeys_bind.mpr (Prog.obeys_tryCatch.mpr (Prog.obeys_perform.mpr
    ⟨⟨hkey, rfl, rows, body, hrows, hbody, rfl⟩, fun r => ?_⟩))
  cases r with
  | error e => exact h
  | ok u => exact h

/-- An invalidation discharges what was owed for its prefix, also when it fails. -/
theorem obeys_cache_delete_prefix {Q : Except PyError β → Ghost → Prop} {prefix_ : String}
    {f : Unit → Api β} (hl : l.writes = true)
    (hp : prefix_ ∈ ["users:", "posts:", "stats:", "messages:"])
    (h : (f ()).Obeys (monitor l) Q (g.pay prefix_)) :
    Prog.Obeys (monitor l) Q g <| cache_delete_prefix prefix_ >>= f := by
  refine Prog.obeys_bind.mpr (Prog.obeys_tryCatch.mpr (Prog.obeys_perform.mpr
    ⟨⟨hl, hp⟩, fun r => ?_⟩))
  cases r with
  | error e => exact h
  | ok u => exact h

/-- Both prefixes of the posts are paid for. -/
theorem obeys_invalidate_posts_cache {f : Unit → Api Reply} (hl : l.writes = true)
    (h : (f ()).Obeys (monitor l) (Ended l) ((g.pay "posts:").pay "stats:")) :
    Prog.Obeys (monitor l) (Ended l) g (invalidate_posts_cache >>= f) := by
  have hstats : Prog.Obeys (monitor l) (Ended l) (g.pay "posts:") <|
      cache_delete_prefix "stats:" >>= f :=
    obeys_cache_delete_prefix hl (by decide) h
  unfold invalidate_posts_cache
  rw [Prog.bind_assoc_eq]
  exact obeys_cache_delete_prefix hl (by decide) hstats

/-- A document is looked for by its `_id`; a user that is found is remembered. -/
theorem obeys_find_one {coll : Coll} {id : ObjectId} {f : Option Doc → Api Reply}
    (hquiet : g.Quiet)
    (hnone : (f none).Obeys (monitor l) (Ended l) g)
    (hsome : ∀ doc, (f (some doc)).Obeys (monitor l) (Ended l)
      { g with seen := if coll = .users then id :: g.seen else g.seen }) :
    Prog.Obeys (monitor l) (Ended l) g (find_one coll id >>= f) := by
  refine Prog.obeys_perform_bind.mpr ⟨trivial, fun (doc : Option Doc) => ?_, fun e => ?_⟩
  · cases doc with
    | none =>
      cases coll <;> exact hnone
    | some doc =>
      cases coll <;> exact hsome doc
  · cases coll <;> exact ended_failed hquiet e

theorem obeys_replyWith {Q : Except PyError Reply → Ghost → Prop} {doc : Option Doc}
    (herror : ∀ e : PyError, ¬ e.limited → Q (.error e) g) (hok : ∀ reply, Q (.ok reply) g) :
    (replyWith doc).Obeys (monitor l) Q g := by
  cases doc with
  | none => exact herror .typeError id
  | some doc =>
    show Prog.Obeys (monitor l) Q g (liftExcept (to_json doc) >>= fun json => pure ⟨[], .obj json⟩)
    cases hjson : to_json doc with
    | ok json => exact hok _
    | error e =>
      apply herror
      rcases to_json_error hjson with rfl | rfl <;> exact id

/-- The last calls of a write that is not counted. -/
theorem obeys_readBack {coll : Coll} {id : ObjectId} (hquiet : g.Quiet)
    (hl : l.isCounted = false) :
    Prog.Obeys (monitor l) (Ended l) g (find_one coll id >>= replyWith) := by
  refine obeys_find_one hquiet ?_ fun doc => ?_
  · exact obeys_replyWith (fun e he => ended_raised hquiet he) fun reply => ended_reply hquiet hl reply
  · have hquiet' : Ghost.Quiet { g with seen := if coll = .users then id :: g.seen else g.seen } :=
      hquiet
    exact obeys_replyWith (fun e he => ended_raised hquiet' he)
      fun reply => ended_reply hquiet' hl reply

/-- The rows of a query are encoded without a status. -/
theorem mapM_to_json_error {rows : List Doc} {e : PyError} (h : rows.mapM to_json = .error e) :
    ¬ e.limited := by
  obtain ⟨doc, -, hdoc⟩ := Fallible.exists_of_mapM_error h
  rcases to_json_error hdoc with rfl | rfl <;> exact id

/-- What a cached `GET` of documents does when nothing is cached. -/
theorem obeys_listDocs {key : String} {coll : Coll} {filter : Filter} {sort : List (String × Bool)}
    (hquiet : g.Quiet) (hkey : l.cache_key = some key)
    (hquery : l.query? = some (.find coll filter sort))
    (hencode : ∀ rows, l.encode rows = (rows.mapM to_json).map listOf) :
    Prog.Obeys (monitor l) (Ended l) g (do
      let rows ← find coll filter sort
      let docs ← liftExcept (rows.mapM to_json)
      cache_set key (listOf docs)
      pure ⟨[("X-Cache", "MISS")], listOf docs⟩) := by
  have hl : l.isCounted = false := by
    cases l with
    | create_message message client => cases hkey
    | _ => rfl
  refine Prog.obeys_perform_bind.mpr ⟨fun _ => hquery, fun (rows : List Doc) => ?_,
    fun e => ended_failed hquiet e⟩
  have hquiet' : Ghost.Quiet { g with rows := some rows } := hquiet
  refine obeys_liftExcept hquiet' (fun e he => mapM_to_json_error he) fun docs hdocs => ?_
  refine obeys_cache_set hkey rfl ?_ (ended_reply hquiet' hl _)
  rw [hencode, hdocs]
  rfl

end Pieces

/-! ## The endpoints -/

omit [Bson] in
theorem quiet_start : Ghost.start.Quiet := ⟨rfl, id⟩

theorem get_users_obeys (login : Option String) (min_age : Option Int) :
    (get_users login min_age).Obeys (monitor (.get_users login min_age))
      (Ended (.get_users login min_age)) .start := by
  refine obeys_cache_get fun v => ?_
  cases v with
  | some cached => exact ended_reply quiet_start rfl _
  | none => exact obeys_listDocs quiet_start rfl rfl fun rows => rfl

theorem get_posts_obeys (author_id tag : Option String) :
    (get_posts author_id tag).Obeys (monitor (.get_posts author_id tag))
      (Ended (.get_posts author_id tag)) .start := by
  refine obeys_cache_get fun v => ?_
  cases v with
  | some cached => exact ended_reply quiet_start rfl _
  | none =>
    refine obeys_liftExcept quiet_start (fun e he => ?_) fun author hauthor => ?_
    · unfold optionalOid at he
      split at he
      · cases he
      · next value _ =>
        cases hvalue : oid value with
        | ok id =>
          rw [hvalue] at he
          cases he
        | error e' =>
          rw [hvalue] at he
          rw [← Except.error.inj he]
          exact oid_error hvalue
    · refine obeys_listDocs quiet_start rfl ?_ fun rows => rfl
      simp only [Request.query?, hauthor]

theorem posts_by_users_obeys :
    posts_by_users.Obeys (monitor .posts_by_users) (Ended .posts_by_users) .start := by
  refine obeys_cache_get fun v => ?_
  cases v with
  | some cached => exact ended_reply quiet_start rfl _
  | none =>
    refine Prog.obeys_perform_bind.mpr ⟨fun _ => rfl, fun (rows : List Doc) => ?_,
      fun e => ended_failed quiet_start e⟩
    exact obeys_cache_set rfl rfl rfl (ended_reply quiet_start rfl _)

theorem get_messages_obeys (user_id : String) :
    (get_messages user_id).Obeys (monitor (.get_messages user_id)) (Ended (.get_messages user_id))
      .start := by
  refine obeys_oid quiet_start fun user => ?_
  refine Prog.obeys_perform_bind.mpr ⟨fun h => (nomatch h), fun (rows : List Doc) => ?_,
    fun e => ended_failed quiet_start e⟩
  have hquiet : Ghost.Quiet { Ghost.start with rows := some rows } := quiet_start
  refine obeys_liftExcept hquiet (fun e he => mapM_to_json_error he) fun docs hdocs => ?_
  exact ended_reply hquiet rfl _

theorem create_user_obeys (user : UserCreate) :
    (create_user user).Obeys (monitor (.create_user user)) (Ended (.create_user user)) .start := by
  refine Prog.obeys_perform_bind.mpr ⟨trivial, fun (created_at : Nat) => ?_,
    fun e => ended_failed quiet_start e⟩
  refine Prog.obeys_bind.mpr (Prog.obeys_tryCatch.mpr (Prog.obeys_perform.mpr
    ⟨⟨user, created_at, rfl, rfl⟩, fun r => ?_⟩))
  cases r with
  | error e =>
    have hquiet : Ghost.Quiet (Ghost.start.fail e) := quiet_start
    show Ended (.create_user user) (.error (.httpException 400 e.str [])) (Ghost.start.fail e)
    exact ended_status hquiet (by decide)
  | ok inserted_id =>
    refine obeys_cache_delete_prefix rfl (by decide) ?_
    exact obeys_readBack ⟨rfl, id⟩ rfl

/-- After `update_one` or `delete_one` of some users. -/
theorem obeys_invalidate_all {l : Request} {c : Call} (hc : c.changes = ["users:", "stats:"])
    {f : Unit → Api Reply} (hl : l.writes = true)
    (h : ∀ g : Ghost, g.Quiet → (f ()).Obeys (monitor l) (Ended l) g) :
    Prog.Obeys (monitor l) (Ended l) (Ghost.start.owe c) (invalidate_users_cache >>= fun _ =>
      invalidate_posts_cache >>= fun _ => invalidate_messages_cache >>= f) := by
  refine obeys_cache_delete_prefix hl (by decide) ?_
  refine obeys_invalidate_posts_cache hl ?_
  refine obeys_cache_delete_prefix hl (by decide) ?_
  refine h _ ⟨?_, id⟩
  show List.filter _ (List.filter _ (List.filter _ (List.filter _ ([] ++ c.changes)))) = []
  rw [hc]
  decide

theorem update_user_obeys (user_id : String) (data : UserUpdate) :
    (update_user user_id data).Obeys (monitor (.update_user user_id data))
      (Ended (.update_user user_id data)) .start := by
  unfold update_user
  show Prog.Obeys _ _ _ (if data.update_data = [] then _ else _)
  split_ifs
  · exact ended_status quiet_start (by decide)
  · refine obeys_oid quiet_start fun user => ?_
    refine Prog.obeys_perform_bind.mpr ⟨⟨data, rfl⟩, fun (matched_count : Nat) => ?_,
      fun e => ended_failed quiet_start e⟩
    show Prog.Obeys _ _ (if matched_count = 0 then Ghost.start else _)
      (if matched_count = 0 then _ else _)
    split_ifs
    · exact ended_status quiet_start (by decide)
    · exact obeys_invalidate_all rfl rfl fun g hquiet => obeys_readBack hquiet rfl

theorem delete_user_obeys (user_id : String) :
    (delete_user user_id).Obeys (monitor (.delete_user user_id)) (Ended (.delete_user user_id))
      .start := by
  refine obeys_oid quiet_start fun user => ?_
  refine Prog.obeys_perform_bind.mpr ⟨nofun, fun (deleted_count : Nat) => ?_,
    fun e => ended_failed quiet_start e⟩
  show Prog.Obeys _ _ (if deleted_count = 0 then Ghost.start else _)
    (if deleted_count = 0 then _ else _)
  split_ifs
  · exact ended_status quiet_start (by decide)
  · exact obeys_invalidate_all rfl rfl fun g hquiet => ended_reply hquiet rfl deleted

/-- After a write to posts, with nothing else owed. -/
theorem obeys_afterPostWrite {l : Request} {g : Ghost} {c : Call}
    (hc : c.changes = ["posts:", "stats:"]) (hquiet : g.Quiet) (hl : l.writes = true)
    (hcounted : l.isCounted = false) (post : ObjectId) :
    Prog.Obeys (monitor l) (Ended l) (g.owe c)
      (invalidate_posts_cache >>= fun _ => find_one .posts post >>= replyWith) := by
  refine obeys_invalidate_posts_cache hl ?_
  refine obeys_readBack ⟨?_, hquiet.2⟩ hcounted
  show List.filter _ (List.filter _ (g.owed ++ c.changes)) = []
  rw [hquiet.1, hc]
  decide

theorem create_post_obeys (post : PostCreate) :
    (create_post post).Obeys (monitor (.create_post post)) (Ended (.create_post post)) .start := by
  refine obeys_oid quiet_start fun author => obeys_find_one quiet_start ?_ fun doc => ?_
  · exact ended_status quiet_start (by decide)
  · show Prog.Obeys _ _ { Ghost.start with seen := [author] } (if doc.isEmpty then _ else _)
    have hquiet : Ghost.Quiet { Ghost.start with seen := [author] } := quiet_start
    split_ifs
    · exact ended_status hquiet (by decide)
    · refine Prog.obeys_perform_bind.mpr ⟨trivial, fun (created_at : Nat) => ?_,
        fun e => ended_failed hquiet e⟩
      refine Prog.obeys_perform_bind.mpr ⟨⟨author, List.mem_cons_self, post, created_at, rfl⟩,
        fun (inserted_id : ObjectId) => ?_, fun e => ended_failed hquiet e⟩
      exact obeys_afterPostWrite rfl hquiet rfl rfl inserted_id

/-- An update of a post, and what follows it. -/
theorem obeys_updatePost {l : Request} (hl : l.writes = true) (hcounted : l.isCounted = false)
    (post : ObjectId) {filter : Filter} {update : Update} (hupdate : PostUpdate update) :
    Prog.Obeys (monitor l) (Ended l) .start (do
      let matched_count : Nat ← Prog.perform (Call.update_one .posts filter update)
      afterPostUpdate matched_count post) := by
  refine Prog.obeys_perform_bind.mpr ⟨hupdate, fun (matched_count : Nat) => ?_,
    fun e => ended_failed quiet_start e⟩
  show Prog.Obeys _ _ (if matched_count = 0 then Ghost.start else _)
    (if matched_count = 0 then _ else _)
  split_ifs
  · exact ended_status quiet_start (by decide)
  · exact obeys_afterPostWrite rfl quiet_start hl hcounted post

theorem like_post_obeys (post_id user_id : String) :
    (like_post post_id user_id).Obeys (monitor (.like_post post_id user_id))
      (Ended (.like_post post_id user_id)) .start :=
  obeys_oid quiet_start fun post => obeys_oid quiet_start fun user =>
    obeys_updatePost rfl rfl post (.like user)

theorem unlike_post_obeys (post_id user_id : String) :
    (unlike_post post_id user_id).Obeys (monitor (.unlike_post post_id user_id))
      (Ended (.unlike_post post_id user_id)) .start :=
  obeys_oid quiet_start fun post => obeys_oid quiet_start fun user =>
    obeys_updatePost rfl rfl post (.unlike user)

theorem add_comment_obeys (post_id user_id text : String) :
    (add_comment post_id user_id text).Obeys (monitor (.add_comment post_id user_id text))
      (Ended (.add_comment post_id user_id text)) .start := by
  refine obeys_oid quiet_start fun user => Prog.obeys_perform_bind.mpr ⟨trivial,
    fun (created_at : Nat) => ?_, fun e => ended_failed quiet_start e⟩
  exact obeys_oid quiet_start fun post => obeys_updatePost rfl rfl post (.comment user text created_at)

theorem mark_message_as_read_obeys (message_id : String) :
    (mark_message_as_read message_id).Obeys (monitor (.mark_message_as_read message_id))
      (Ended (.mark_message_as_read message_id)) .start := by
  refine obeys_oid quiet_start fun message => Prog.obeys_perform_bind.mpr ⟨rfl,
    fun (matched_count : Nat) => ?_, fun e => ended_failed quiet_start e⟩
  show Prog.Obeys _ _ (if matched_count = 0 then Ghost.start else Ghost.start)
    (if matched_count = 0 then _ else _)
  split_ifs
  · exact ended_status quiet_start (by decide)
  · refine obeys_cache_delete_prefix rfl (by decide) ?_
    exact obeys_readBack quiet_start rfl

theorem delete_message_obeys (message_id : String) :
    (delete_message message_id).Obeys (monitor (.delete_message message_id))
      (Ended (.delete_message message_id)) .start := by
  refine obeys_oid quiet_start fun message => Prog.obeys_perform_bind.mpr ⟨nofun,
    fun (deleted_count : Nat) => ?_, fun e => ended_failed quiet_start e⟩
  show Prog.Obeys _ _ (if deleted_count = 0 then Ghost.start else Ghost.start)
    (if deleted_count = 0 then _ else _)
  split_ifs
  · exact ended_status quiet_start (by decide)
  · refine obeys_cache_delete_prefix rfl (by decide) ?_
    exact ended_reply quiet_start rfl deleted

/-- What the rate limiter makes of a count. -/
def limitReply (window : Nat) (current : Int) : Api (List (String × String)) :=
  if RATE_LIMIT < current then
    Prog.raise (.httpException 429 "Too Many Requests" (rateHeaders window current))
  else pure (rateHeaders window current)

/-- What follows the `INCR`. -/
def afterIncr (client : Option String) (window : Nat) (current : Int) :
    Api (List (String × String)) :=
  if current = 1 then
    Prog.perform (Call.expire (rateKey client window) RATE_WINDOW) >>= fun (_ : Unit) =>
      limitReply window current
  else limitReply window current

omit [Bson] in
/-- The limiter reads the clock once and counts once. -/
theorem check_rate_limit_eq (client : Option String) :
    check_rate_limit client "create_message" =
      Prog.perform Call.time >>= fun (now : Nat) =>
        Prog.perform (Call.incr (rateKey client (now / (RATE_WINDOW * 1000)))) >>=
          fun (current : Int) => afterIncr client (now / (RATE_WINDOW * 1000)) current := rfl

/-- The request is counted, and refused if the count is too high; the headers are those of its
count. -/
theorem obeys_check_rate_limit {message : MessageCreate} {client : Option String}
    {f : List (String × String) → Api Reply}
    (h : ∀ window current, ¬ RATE_LIMIT < current → (f (rateHeaders window current)).Obeys
      (monitor (.create_message message client)) (Ended (.create_message message client))
        { Ghost.start with phase := .counted window current }) :
    Prog.Obeys (monitor (.create_message message client)) (Ended (.create_message message client))
      .start (check_rate_limit client "create_message" >>= f) := by
  have hlimit : ∀ window current, Prog.Obeys (monitor (.create_message message client))
      (Ended (.create_message message client)) { Ghost.start with phase := .counted window current }
        (limitReply window current >>= f) := by
    intro window current
    unfold limitReply
    split_ifs with hcurrent
    · exact ⟨rfl, .inr (iff_of_true rfl hcurrent)⟩
    · exact h window current hcurrent
  rw [check_rate_limit_eq]
  refine Prog.obeys_perform_bind_bind.mpr ⟨rfl, fun (now : Nat) => ?_,
    fun e => ended_failed quiet_start e⟩
  refine Prog.obeys_perform_bind_bind.mpr ⟨⟨message, client, _, rfl, rfl, rfl⟩,
    fun (current : Int) => ?_, fun e => ⟨rfl, .inl ⟨List.mem_cons_self, id⟩⟩⟩
  show Prog.Obeys (monitor _) (Ended _)
    { Ghost.start with phase := .counted (now / (RATE_WINDOW * 1000)) current }
    (afterIncr client (now / (RATE_WINDOW * 1000)) current >>= f)
  unfold afterIncr
  split_ifs with hfirst
  -- the first request of a window is below the limit, so a failed EXPIRE is the only way to raise
  · have hquiet : Ghost.Quiet { Ghost.start with
        phase := .counted (now / (RATE_WINDOW * 1000)) current } := by
      refine ⟨rfl, ?_⟩
      show ¬ RATE_LIMIT < current
      rw [hfirst]
      decide
    refine Prog.obeys_perform_bind_bind.mpr ⟨⟨message, client, _, rfl, ?_, rfl, rfl⟩,
      fun (_ : Unit) => hlimit _ current, fun e => ended_failed hquiet e⟩
    rw [hfirst]
  · exact hlimit _ current

/-- The last calls of a message that is created. -/
theorem obeys_createMessage {message : MessageCreate} {client : Option String} {window : Nat}
    {current : Int} (hcurrent : ¬ RATE_LIMIT < current) {g : Ghost} (howed : g.owed = [])
    (hphase : g.phase = .counted window current) {from_ to_ : ObjectId} (hfrom : from_ ∈ g.seen)
    (hto : to_ ∈ g.seen) :
    Prog.Obeys (monitor (.create_message message client)) (Ended (.create_message message client)) g
      (do
        let created_at : Nat ← Prog.perform Call.utcnow
        let inserted_id : ObjectId ←
          Prog.perform (Call.insert_one .messages (messageDoc from_ to_ message created_at))
        invalidate_messages_cache
        let created ← find_one .messages inserted_id
        let reply ← replyWith created
        pure { reply with headers := rateHeaders window current }) := by
  have hquiet : g.Quiet := by
    refine ⟨howed, ?_⟩
    unfold Ghost.limited
    rw [hphase]
    exact hcurrent
  refine Prog.obeys_perform_bind.mpr ⟨trivial, fun (created_at : Nat) => ?_,
    fun e => ended_failed hquiet e⟩
  refine Prog.obeys_perform_bind.mpr ⟨⟨from_, hfrom, to_, hto, message, created_at, rfl⟩,
    fun (inserted_id : ObjectId) => ?_, fun e => ended_failed hquiet e⟩
  refine obeys_cache_delete_prefix rfl (by decide) ?_
  have hquiet' : Ghost.Quiet ((g.owe (.insert_one .messages
      (messageDoc from_ to_ message created_at))).pay "messages:") := by
    refine ⟨?_, hquiet.2⟩
    show List.filter _ (g.owed ++ []) = []
    rw [howed]
    rfl
  have hreply : ∀ created : Option Doc, Prog.Obeys (monitor (.create_message message client))
      (Ended (.create_message message client)) ((g.owe (.insert_one .messages
        (messageDoc from_ to_ message created_at))).pay "messages:") (do
          let reply ← replyWith created
          pure { reply with headers := rateHeaders window current }) := by
    intro created
    refine Prog.obeys_bind.mpr (obeys_replyWith (fun e he => ended_raised hquiet' he) fun reply => ?_)
    refine ⟨hquiet'.1, hquiet'.2, fun message' client' _ => ⟨window, current, hphase, rfl⟩⟩
  exact obeys_find_one hquiet' (hreply none) fun doc => hreply (some doc)

theorem create_message_obeys (message : MessageCreate) (client : Option String) :
    (create_message message client).Obeys (monitor (.create_message message client))
      (Ended (.create_message message client)) .start := by
  refine obeys_check_rate_limit fun window current hcurrent => ?_
  have hquiet : ∀ seen, Ghost.Quiet { Ghost.start with
      seen := seen, phase := .counted window current } := fun seen => ⟨rfl, hcurrent⟩
  refine obeys_oid (hquiet []) fun from_ => obeys_oid (hquiet []) fun to_ => ?_
  refine obeys_find_one (hquiet []) (ended_status (hquiet []) (by decide)) fun sender => ?_
  show Prog.Obeys _ _ { Ghost.start with seen := [from_], phase := .counted window current }
    (if sender.isEmpty then _ else _)
  split_ifs
  · exact ended_status (hquiet [from_]) (by decide)
  · refine obeys_find_one (hquiet [from_]) (ended_status (hquiet [from_]) (by decide))
      fun receiver => ?_
    show Prog.Obeys _ _ { Ghost.start with seen := [to_, from_], phase := .counted window current }
      (if receiver.isEmpty then _ else _)
    split_ifs
    · exact ended_status (hquiet [to_, from_]) (by decide)
    · exact obeys_createMessage hcurrent rfl rfl (List.mem_cons_of_mem _ List.mem_cons_self)
        List.mem_cons_self

/-- **The protocol.** Every request keeps to it. -/
theorem handle_obeys (r : Request) : (handle r).Obeys (monitor r) (Ended r) .start := by
  cases r with
  | get_users login min_age => exact get_users_obeys login min_age
  | create_user user => exact create_user_obeys user
  | update_user user_id data => exact update_user_obeys user_id data
  | delete_user user_id => exact delete_user_obeys user_id
  | get_posts author_id tag => exact get_posts_obeys author_id tag
  | create_post post => exact create_post_obeys post
  | like_post post_id user_id => exact like_post_obeys post_id user_id
  | unlike_post post_id user_id => exact unlike_post_obeys post_id user_id
  | add_comment post_id user_id text => exact add_comment_obeys post_id user_id text
  | get_messages user_id => exact get_messages_obeys user_id
  | create_message message client => exact create_message_obeys message client
  | mark_message_as_read message_id => exact mark_message_as_read_obeys message_id
  | delete_message message_id => exact delete_message_obeys message_id
  | posts_by_users => exact posts_by_users_obeys

end SocialNetwork.MongoApi

import SocialNetwork.MongoApi.StatisticsTheorems

/-!
# A hit after the miss that filled it

What an endpoint returns is sent through FastAPI's encoder (`jsonable`), which writes a date as
`isoformat()` does. What is cached has been through `json.dumps`, which writes it as `str` does. The
two differ in one character, so a hit is sent as the miss was just if no date is in it.
-/

namespace SocialNetwork.MongoApi

open DocStore KeyValue

/-! ## FastAPI's encoder -/

/-- The exponent of an infinity or of no number has only ones. -/
def isFinite (bits : BitVec 64) : Bool := bits.toNat / 2 ^ 52 % 2 ^ 11 ≠ 2 ^ 11 - 1

mutual

/-- `jsonable_encoder` and the rendering of its result; none where they raise, on an `ObjectId` and
on a double that JSON has no notation for. -/
def jsonable : Value → Option Value
  | .oid _ => none
  | .date ms => some (.str (isoformat "T" ms))
  | .double bits => if isFinite bits then some (.double bits) else none
  | .arr vs => (jsonableList vs).map .arr
  | .obj fs => (jsonableFields fs).map .obj
  | v => some v

def jsonableList : List Value → Option (List Value)
  | [] => some []
  | v :: vs => (jsonable v).bind fun v => (jsonableList vs).map (v :: ·)

def jsonableFields : List (String × Value) → Option (List (String × Value))
  | [] => some []
  | (f, v) :: fs => (jsonable v).bind fun v => (jsonableFields fs).map ((f, v) :: ·)

end

/-- Both replies are sent, with the same JSON. -/
def SentAlike (reply reply' : Reply) : Prop :=
  ∃ json, jsonable reply.body = some json ∧ jsonable reply'.body = some json

/-- The two ways to write a date. -/
theorem isoformat_ne (ms : Int) : isoformat "T" ms ≠ isoformat " " ms := by
  intro h
  have hlist := congrArg String.toList h
  simp only [isoformat, String.toList_append, List.append_assoc] at hlist
  -- the separator stands after year, month and day
  have hyear := List.append_cancel_left (List.append_cancel_left hlist)
  have hmonth := List.append_cancel_left (List.append_cancel_left hyear)
  have hday := List.append_cancel_left hmonth
  have hT : "T".toList = ['T'] := by decide
  have hblank : " ".toList = [' '] := by decide
  rw [hT, hblank, List.singleton_append, List.singleton_append] at hday
  exact absurd (List.cons.inj hday).1 (by decide)

/-- A field of an encoded object. -/
theorem get_jsonableFields {fs gs : Doc} (h : jsonableFields fs = some gs) (f : String) :
    Doc.get gs f = (Doc.get fs f).bind jsonable := by
  induction fs generalizing gs with
  | nil =>
    cases h
    rfl
  | cons x fs ih =>
    obtain ⟨g, v⟩ := x
    obtain ⟨v', hv, h⟩ := Option.bind_eq_some_iff.mp h
    obtain ⟨gs', hgs, rfl⟩ := Option.map_eq_some_iff.mp h
    rw [Doc.get_cons, Doc.get_cons]
    split_ifs
    · exact hv.symm
    · exact ih hgs

/-- A field of a cached object. -/
theorem get_dumpsFields (fs : Doc) (f : String) :
    Doc.get (dumpsFields fs) f = (Doc.get fs f).map json_dumps := by
  induction fs with
  | nil => rfl
  | cons x fs ih =>
    obtain ⟨g, v⟩ := x
    show Doc.get ((g, json_dumps v) :: dumpsFields fs) f = _
    rw [Doc.get_cons, Doc.get_cons, ih]
    split_ifs <;> rfl

/-- An object with a date is not sent alike. -/
theorem not_sentAlike_of_date {d : Doc} {f : String} {ms : Int} (hdate : d.get f = some (.date ms))
    {gs : Doc} (hmiss : jsonableFields d = some gs) : jsonableFields (dumpsFields d) ≠ some gs := by
  intro hhit
  have hget := get_jsonableFields hmiss f
  rw [get_jsonableFields hhit f, get_dumpsFields, hdate] at hget
  have hstr : some (Value.str (isoformat " " ms)) = some (Value.str (isoformat "T" ms)) := hget
  exact isoformat_ne ms (Value.str.inj (Option.some.inj hstr)).symm

/-! ## A miss and a hit -/

section Hits

variable {w w₁ : World} {r : Request} {ω ω' : Choice} {key : String}

def hitReply (cached : Value) : Reply := ⟨[("X-Cache", "HIT")], cached⟩

theorem alone_get (key : String) :
    alone ω r (.get key) w = (w, .ok ((w.redis.lookup w.now key).map (·.value))) := rfl

theorem eval_cache_get_none (h : w.redis.lookup w.now key = none) :
    (cache_get key).eval (alone ω r) w = (w, .ok none) := by
  apply Prog.eval_tryCatch
  have hget : alone ω r (.get key) w = (w, .ok none) := by
    rw [alone_get, h]
    rfl
  exact Prog.eval_perform_bind hget

theorem eval_cache_get_some {e : Entry Value Request} (h : w.redis.lookup w.now key = some e) :
    (cache_get key).eval (alone ω r) w = (w, .ok (json_loads e.value)) := by
  apply Prog.eval_tryCatch
  have hget : alone ω r (.get key) w = (w, .ok (some e.value)) := by
    rw [alone_get, h]
    rfl
  exact Prog.eval_perform_bind hget

/-- The world in which the answer has been cached. -/
def World.cached (w : World) (r : Request) (key : String) (body : Value) : World :=
  { w with redis := w.redis.put w.now key (json_dumps body) (some (CACHE_TTL * 1000)) r }

theorem eval_cache_set (body : Value) :
    (cache_set key body).eval (alone ω r) w = (w.cached r key body, .ok ()) := by
  apply Prog.eval_tryCatch
  exact Prog.eval_perform (Call.setex key CACHE_TTL (json_dumps body)) w

/-- The rows of a query, alone. -/
theorem alone_query_ok {q : Query} {w₁ : World} {rows : List Doc}
    (h : alone ω r (.query q) w = (w₁, .ok rows)) : w₁ = w ∧ rows = ω.rows ∧ q.Returns w.db ω.rows := by
  unfold alone at h
  simp only [execute] at h
  cases herror : q.error? w.db with
  | some e =>
    simp only [herror] at h
    cases h
  | none =>
    simp only [herror] at h
    split_ifs at h with hreturns
    · cases h
      exact ⟨rfl, rfl, hreturns⟩
    · cases h

/-- A miss that is answered has cached its answer. -/
theorem eval_onMiss_ok {q : Query} {enc : List Doc → Except PyError (List Doc)} {reply : Reply}
    (h : (onMiss key q enc).eval (alone ω r) w = (w₁, .ok reply)) :
    q.Returns w.db ω.rows ∧ ∃ docs, enc ω.rows = .ok docs ∧ reply = missReply docs ∧
      w₁ = w.cached r key (listOf docs) := by
  obtain ⟨w₂, x, hquery⟩ : ∃ w₂ x, alone ω r (.query q) w = (w₂, x) := ⟨_, _, rfl⟩
  cases x with
  | error e =>
    have heval : (onMiss key q enc).eval (alone ω r) w = (w₂, .error e) :=
      Prog.eval_perform_bind_error hquery
    rw [heval] at h
    cases h
  | ok rows =>
    obtain ⟨rfl, rfl, hreturns⟩ := alone_query_ok hquery
    have heval : (onMiss key q enc).eval (alone ω r) w₂ =
        (liftExcept (enc ω.rows) >>= fun docs => cache_set key (listOf docs) >>= fun _ =>
          pure (missReply docs)).eval (alone ω r) w₂ := Prog.eval_perform_bind hquery
    rw [heval] at h
    refine ⟨hreturns, ?_⟩
    -- the cache is written after the rows have been encoded, so a failed MISS leaves nothing in it
    cases henc : enc ω.rows with
    | error e =>
      rw [henc] at h
      cases h
    | ok docs =>
      rw [henc] at h
      have hset : (cache_set key (listOf docs) >>= fun _ => pure (missReply docs)).eval
          (alone ω r) w₂ = (w₂.cached r key (listOf docs), .ok (missReply docs)) :=
        Prog.eval_bind (eval_cache_set _)
      have heq : (w₂.cached r key (listOf docs), Except.ok (missReply docs)) =
          (w₁, (.ok reply : Except PyError Reply)) := hset.symm.trans h
      obtain ⟨hworld, hreply⟩ := Prod.mk.inj heq
      exact ⟨docs, rfl, (Except.ok.inj hreply).symm, hworld.symm⟩

/-- Within its time to live the answer is read back. -/
theorem lookup_cached (w : World) (r : Request) (key : String) (body : Value) {ms : Nat}
    (hms : ms < CACHE_TTL * 1000) :
    ∃ e, (w.cached r key body).redis.lookup (w.now + ms) key = some e ∧
      e.value = json_dumps body := by
  refine ⟨⟨key, json_dumps body, some (w.now + CACHE_TTL * 1000), w.redis.next, w.now, r⟩, ?_, rfl⟩
  show (w.redis.put w.now key (json_dumps body) (some (CACHE_TTL * 1000)) r).lookup _ key = _
  rw [Store.lookup_eq_entryOf, Store.entryOf_put_self]
  · rfl
  intro e he hkey
  rcases Store.mem_put.mp he with ⟨-, hne⟩ | rfl
  · exact absurd hkey hne
  · show decide (w.now + ms < w.now + CACHE_TTL * 1000) = true
    apply decide_eq_true
    omega

theorem json_loads_list (docs : List Doc) :
    json_loads (json_dumps (listOf docs)) = some (json_dumps (listOf docs)) := rfl

/-! ## What is sent -/

/-- An empty list is sent as it is. -/
theorem sentAlike_nil : SentAlike (missReply []) (hitReply (json_dumps (listOf []))) :=
  ⟨.arr [], rfl, rfl⟩

/-- A list of documents of which the first one has a date. -/
theorem not_sentAlike {d : Doc} {docs : List Doc} {f : String} {ms : Int}
    (hdate : d.get f = some (.date ms)) :
    ¬ SentAlike (missReply (d :: docs)) (hitReply (json_dumps (listOf (d :: docs)))) := by
  rintro ⟨json, hmiss, hhit⟩
  obtain ⟨vs, hvs, rfl⟩ := Option.map_eq_some_iff.mp hmiss
  obtain ⟨vs', hvs', heq⟩ := Option.map_eq_some_iff.mp hhit
  cases heq
  obtain ⟨v, hv, hrest⟩ := Option.bind_eq_some_iff.mp hvs
  obtain ⟨v', hv', hrest'⟩ := Option.bind_eq_some_iff.mp hvs'
  obtain ⟨gs, hgs, rfl⟩ := Option.map_eq_some_iff.mp hv
  obtain ⟨gs', hgs', rfl⟩ := Option.map_eq_some_iff.mp hv'
  obtain ⟨us, -, rfl⟩ := Option.map_eq_some_iff.mp hrest
  obtain ⟨us', -, heq⟩ := Option.map_eq_some_iff.mp hrest'
  have hsame : gs' = gs := Value.obj.inj (List.cons.inj heq).1
  rw [hsame] at hgs'
  exact not_sentAlike_of_date hdate hgs hgs'

/-- A row of the statistics has neither an id nor a date. -/
theorem statsRow_plain {db : Db} {user : Doc} (h : user ∈ db.docs .users) (posts : List Doc) :
    dumpsFields (statsRow user posts) = statsRow user posts ∧
      jsonableFields (statsRow user posts) = some (statsRow user posts) := by
  obtain ⟨login, hlogin⟩ := user_login h
  unfold statsRow
  rw [hlogin]
  exact ⟨rfl, rfl⟩

theorem sentAlike_plain {docs : List Doc}
    (h : ∀ d ∈ docs, dumpsFields d = d ∧ jsonableFields d = some d) :
    SentAlike (missReply docs) (hitReply (json_dumps (listOf docs))) := by
  have hlists : dumpsList (docs.map .obj) = docs.map .obj ∧
      jsonableList (docs.map .obj) = some (docs.map .obj) := by
    induction docs with
    | nil => exact ⟨rfl, rfl⟩
    | cons d docs ih =>
      rw [List.forall_mem_cons] at h
      obtain ⟨⟨hdumps, hjsonable⟩, hrest⟩ := h
      obtain ⟨ihdumps, ihjsonable⟩ := ih hrest
      constructor
      · show Value.obj (dumpsFields d) :: dumpsList (docs.map .obj) = _
        rw [hdumps, ihdumps]
        rfl
      · show ((jsonableFields d).map Value.obj).bind (fun v =>
          (jsonableList (docs.map .obj)).map (v :: ·)) = _
        rw [hjsonable, ihjsonable]
        rfl
  refine ⟨listOf docs, ?_, ?_⟩
  · show (jsonableList (docs.map .obj)).map Value.arr = _
    rw [hlists.2]
    rfl
  · show (jsonableList (dumpsList (docs.map .obj))).map Value.arr = _
    rw [hlists.1, hlists.2]
    rfl

/-- The date of a document of the collections that are listed. -/
theorem created_at_of_mem {db : Db} {coll : Coll} {d : Doc} (hd : d ∈ db.docs coll) :
    ∃ ms, d.get "created_at" = some (.date ms) := by
  have hdate : ∃ v, d.get "created_at" = some v ∧ Schema.date.holds v = true := by
    cases coll with
    | users => exact Schema.exists_of_required (db.users.valid d hd) (by decide) (by simp)
    | posts => exact Schema.exists_of_required (db.posts.valid d hd) (by decide) (by simp)
    | messages => exact Schema.exists_of_required (db.messages.valid d hd) (by decide) (by simp)
  obtain ⟨v, hv, hholds⟩ := hdate
  cases v with
  | date ms => exact ⟨ms, hv⟩
  | _ => cases hholds

/-! ## The requests -/

variable [Bson]

/-- What a `GET` does without a cached answer. -/
def missOf : Request → Api Reply
  | .get_users login min_age =>
    onMiss (usersKey login min_age) (.find .users (usersQuery login min_age) [])
      fun rows => rows.mapM to_json
  | .get_posts author_id tag => do
    let author ← liftExcept (optionalOid author_id)
    onMiss (postsKey author_id tag) (.find .posts (postsQuery author tag) [("created_at", true)])
      fun rows => rows.mapM to_json
  | .posts_by_users => onMiss statsKey (.aggregate .posts pipeline) fun rows => .ok rows
  | _ => .raise .typeError

theorem handle_cached (h : r.cache_key = some key) :
    handle r = cache_get key >>= fun v =>
      match v with
      | some cached => pure (hitReply cached)
      | none => missOf r := by
  cases r with
  | get_users login min_age =>
    cases h
    rfl
  | get_posts author_id tag =>
    cases h
    rfl
  | posts_by_users =>
    cases h
    rfl
  | _ => cases h

/-- The reply to a miss: the encoded rows of the query, which are cached. -/
theorem eval_miss_ok (hkey : r.cache_key = some key) (hnone : w.redis.lookup w.now key = none)
    {miss : Reply} (h : (handle r).eval (alone ω r) w = (w₁, .ok miss)) :
    ∃ q docs, r.query? = some q ∧ q.Returns w.db ω.rows ∧ r.encodeDocs ω.rows = .ok docs ∧
      miss = missReply docs ∧ w₁ = w.cached r key (listOf docs) := by
  rw [handle_cached hkey, Prog.eval_bind (eval_cache_get_none hnone)] at h
  cases r with
  | get_users login min_age =>
    cases hkey
    obtain ⟨hreturns, docs, hdocs, hrest⟩ := eval_onMiss_ok h
    exact ⟨_, docs, rfl, hreturns, hdocs, hrest⟩
  | get_posts author_id tag =>
    cases hkey
    cases hauthor : optionalOid author_id with
    | error e =>
      simp only [missOf, hauthor] at h
      cases h
    | ok author =>
      simp only [missOf, hauthor] at h
      obtain ⟨hreturns, docs, hdocs, hrest⟩ := eval_onMiss_ok h
      refine ⟨_, docs, ?_, hreturns, hdocs, hrest⟩
      simp only [Request.query?, hauthor]
  | posts_by_users =>
    cases hkey
    obtain ⟨hreturns, docs, hdocs, hrest⟩ := eval_onMiss_ok h
    exact ⟨_, docs, rfl, hreturns, hdocs, hrest⟩
  | _ => cases hkey

/-- The request after a miss. -/
theorem eval_hit (hkey : r.cache_key = some key) (docs : List Doc) {ms : Nat}
    (hms : ms < CACHE_TTL * 1000) :
    (handle r).eval (alone ω' r) { w.cached r key (listOf docs) with now := w.now + ms } =
      ({ w.cached r key (listOf docs) with now := w.now + ms },
        .ok (hitReply (json_dumps (listOf docs)))) := by
  obtain ⟨e, hlookup, hvalue⟩ := lookup_cached w r key (listOf docs) hms
  have hget : (cache_get key).eval (alone ω' r)
      { w.cached r key (listOf docs) with now := w.now + ms } =
        ({ w.cached r key (listOf docs) with now := w.now + ms },
          .ok (some (json_dumps (listOf docs)))) := by
    rw [← json_loads_list, ← hvalue]
    exact eval_cache_get_some hlookup
  rw [handle_cached hkey, Prog.eval_bind hget]
  rfl

/-- The documents that a `GET` of users or posts selects. -/
def selected (r : Request) (db : Db) : List Doc :=
  match r.query? with
  | some (.find coll filter _) => DocStore.find filter (db.docs coll)
  | _ => []

/-- A list of users or posts is sent alike just if it is empty. -/
theorem sentAlike_listed {db : Db} {coll : Coll} {filter : Filter} {rows docs : List Doc}
    (hperm : rows.Perm (DocStore.find filter (db.docs coll))) (hdocs : rows.mapM to_json = .ok docs) :
    SentAlike (missReply docs) (hitReply (json_dumps (listOf docs))) ↔
      DocStore.find filter (db.docs coll) = [] := by
  have hpairs := Fallible.forall₂_of_mapM hdocs
  cases hpairs with
  | nil => exact iff_of_true sentAlike_nil hperm.symm.eq_nil
  | @cons d doc rows docs hd _ =>
    have hmem : d ∈ DocStore.find filter (db.docs coll) := hperm.mem_iff.mp List.mem_cons_self
    obtain ⟨ms, hms⟩ := created_at_of_mem (List.mem_of_mem_filter hmem)
    have hdate : doc.get "created_at" = some (.date ms) := by
      rw [get_to_json hd (by decide), hms]
    refine iff_of_false (not_sentAlike hdate) fun hnil => ?_
    rw [hnil] at hmem
    cases hmem

/-- **Hits and misses.** A request that finds nothing cached and is answered fills the cache; the
same request after it, within the time to live, is a hit. Both are sent alike just if the request is
for the statistics or no document is selected. -/
theorem hit_like_miss_iff (hkey : r.cache_key = some key)
    (hnone : w.redis.lookup w.now key = none) {miss : Reply}
    (hmiss : (handle r).eval (alone ω r) w = (w₁, .ok miss)) {ms : Nat}
    (hms : ms < CACHE_TTL * 1000) (ω' : Choice) :
    ∃ hit, ((handle r).eval (alone ω' r) { w₁ with now := w₁.now + ms }).2 = .ok hit ∧
      miss.headers = [("X-Cache", "MISS")] ∧ hit.headers = [("X-Cache", "HIT")] ∧
      (SentAlike miss hit ↔ r = .posts_by_users ∨ selected r w.db = []) := by
  obtain ⟨q, docs, hq, hreturns, hdocs, rfl, rfl⟩ := eval_miss_ok hkey hnone hmiss
  refine ⟨_, congrArg Prod.snd (eval_hit hkey docs hms), rfl, rfl, ?_⟩
  -- users and posts carry their date; the rows of the statistics hold numbers and texts
  cases r with
  | get_users login min_age =>
    cases hq
    have hrows : ω.rows = DocStore.find (usersQuery login min_age) (w.db.docs .users) := by
      obtain ⟨-, -, hrows⟩ := hreturns
      exact hrows
    rw [sentAlike_listed (List.Perm.of_eq hrows) hdocs]
    exact (or_iff_right nofun).symm
  | get_posts author_id tag =>
    obtain ⟨author, rfl⟩ := query?_get_posts hq
    rw [sentAlike_listed hreturns.2.2.1 hdocs, selected, hq]
    exact (or_iff_right nofun).symm
  | posts_by_users =>
    cases hq
    cases hdocs
    refine iff_of_true (sentAlike_plain fun d hd => ?_) (.inl rfl)
    obtain ⟨out, hout, hperm⟩ := pipeline_perm w.db
    have hrows : ω.rows.Perm out := by
      have hrun : pipeline.Returns w.db.docs (w.db.docs .posts) ω.rows := hreturns.1
      rw [Pipeline.Returns, hout] at hrun
      exact hrun.1
    obtain ⟨user, huser, rfl⟩ := List.mem_map.mp ((hrows.trans hperm).mem_iff.mp hd)
    exact statsRow_plain (List.mem_of_mem_filter huser) _
  | _ => cases hkey

end Hits

open scoped Hex

/-- A user of the time of the first commit. -/
def bobDoc : Doc :=
  [("_id", .oid (.ofNat 1)), ("login", .str "bob"), ("email", .str "bob@example.com"),
    ("password", .str "secret"), ("first_name", .str "Bob"), ("last_name", .str "Brown"),
    ("created_at", .date 1779184800000)]

def bobPost : Doc :=
  [("_id", .oid (.ofNat 2)), ("author_id", .oid (.ofNat 1)), ("content", .str "hello"),
    ("tags", strings ["intro"]), ("likes", .arr [.oid (.ofNat 1)]), ("comments", .arr []),
    ("created_at", .date 1779184860000)]

def bobDb : Db where
  users :=
    { docs := [bobDoc]
      valid := by decide +kernel
      id := fun d hd => ⟨.ofNat 1, by rw [List.mem_singleton.mp hd]; rfl⟩
      nodup := by decide }
  posts :=
    { docs := [bobPost]
      valid := by decide +kernel
      id := fun d hd => ⟨.ofNat 2, by rw [List.mem_singleton.mp hd]; rfl⟩
      nodup := by decide }
  messages := Validated.empty
  issued := [.ofNat 1, .ofNat 2]
  ids_issued := by
    intro d hd id hid
    have hdocs : d ∈ [bobDoc, bobPost] := hd
    rcases List.mem_cons.mp hdocs with rfl | hdocs
    · cases hid
      decide
    · rw [List.mem_singleton.mp hdocs] at hid
      cases hid
      decide

def bobRow : Doc :=
  [("posts_count", .int 1), ("likes_count", .int 1), ("user_id", .str (ObjectId.ofNat 1).hex),
    ("login", .str "bob")]

/-- `GET /stats/posts-by-users` twice: the row is sent alike. -/
theorem hit_like_miss_iff_statistics : ∃ w₁ hit,
    (handle .posts_by_users).eval (alone ⟨.ofNat 0, [bobRow], [], true⟩ .posts_by_users)
      (.alone bobDb) = (w₁, .ok (missReply [bobRow])) ∧
    ((handle .posts_by_users).eval (alone ⟨.ofNat 0, [bobRow], [], true⟩ .posts_by_users)
      { w₁ with now := w₁.now + 10 }).2 = .ok hit ∧ SentAlike (missReply [bobRow]) hit := by
  have hreply : ((handle .posts_by_users).eval (alone ⟨.ofNat 0, [bobRow], [], true⟩ .posts_by_users)
      (.alone bobDb)).2 = .ok (missReply [bobRow]) := by decide +kernel
  have hmiss := Prod.ext_iff.mpr ⟨rfl, hreply⟩
  obtain ⟨hit, hhit, -, -, hiff⟩ := hit_like_miss_iff
    (rfl : Request.cache_key .posts_by_users = some statsKey) rfl hmiss
    (by decide : 10 < CACHE_TTL * 1000) ⟨.ofNat 0, [bobRow], [], true⟩
  exact ⟨_, hit, hmiss, hhit, hiff.mpr (.inl rfl)⟩

/-- `GET /users` twice: the date of the user has a "T" in the first answer and a blank in the
second one. -/
theorem date_changes_on_hit : ∃ w₁ miss hit,
    (handle (.get_users none none)).eval (alone ⟨.ofNat 0, [bobDoc], [], true⟩ (.get_users none none))
      (.alone bobDb) = (w₁, .ok miss) ∧
    ((handle (.get_users none none)).eval
      (alone ⟨.ofNat 0, [bobDoc], [], true⟩ (.get_users none none))
        { w₁ with now := w₁.now + 10 }).2 = .ok hit ∧
    (∃ d d' : Doc, jsonable miss.body = some (listOf [d]) ∧ jsonable hit.body = some (listOf [d']) ∧
      d.get "created_at" = some (.str "2026-05-19T10:00:00") ∧
      d'.get "created_at" = some (.str "2026-05-19 10:00:00")) ∧
    ¬ SentAlike miss hit := by
  have hmiss : (handle (.get_users none none)).eval
      (alone ⟨.ofNat 0, [bobDoc], [], true⟩ (.get_users none none)) (.alone bobDb) =
        ((World.alone bobDb).cached (.get_users none none) (usersKey none none)
          (listOf [bobDoc.set "_id" (.str (ObjectId.ofNat 1).hex)]),
          .ok (missReply [bobDoc.set "_id" (.str (ObjectId.ofNat 1).hex)])) := by rfl
  refine ⟨_, _, _, hmiss, congrArg Prod.snd (eval_hit rfl _ (by decide)), ?_, ?_⟩
  · refine ⟨_, _, rfl, rfl, ?_, ?_⟩
    · decide +kernel
    · decide +kernel
  · exact not_sentAlike (show Doc.get _ "created_at" = some (.date 1779184800000) from rfl)

end SocialNetwork.MongoApi

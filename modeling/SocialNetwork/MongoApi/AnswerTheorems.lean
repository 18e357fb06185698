import SocialNetwork.MongoApi.Service

/-!
# What a cached `GET` answers without the cache

A `GET` that finds nothing in Redis answers with the encoded rows of its query, or with the
exception of its argument, of the query or of the encoding (`respond_get`). What it caches is what
it answers (`computes_iff`).
-/

namespace SocialNetwork.MongoApi

open DocStore KeyValue

variable {ω : Choice} {r : Request} {db : Db}

/-- A world with this database, and nothing in Redis. -/
def World.alone (db : Db) : World := ⟨db, Store.empty, 0, [], []⟩

/-- Nothing is cached. -/
theorem eval_cache_get (key : String) :
    (cache_get key).eval (alone ω r) (.alone db) = (.alone db, .ok none) := rfl

/-- The rows of a query, or its exception. -/
def rowsOf (ω : Choice) (q : Query) (db : Db) : Except PyError (List Doc) :=
  match q.error? db with
  | some e => .error e
  | none => if q.Returns db ω.rows then .ok ω.rows else .error .operationFailure

theorem alone_query (q : Query) :
    alone ω r (.query q) (.alone db) = (.alone db, rowsOf ω q db) := by
  have hdb : (World.alone db).db = db := rfl
  unfold alone rowsOf
  cases herror : q.error? db with
  | some e =>
    simp only [execute, hdb, herror]
    rfl
  | none =>
    by_cases hreturns : q.Returns db ω.rows
    · simp only [execute, hdb, herror, if_pos hreturns]
      rfl
    · simp only [execute, hdb, herror, if_neg hreturns]
      rfl

/-- Rows that can be read can be read in every order. -/
theorem Readable.perm {rows rows' : List Doc} (h : rows.Perm rows') : Readable rows ↔ Readable rows' :=
  ⟨fun hrows row hrow => hrows row (h.mem_iff.mpr hrow),
    fun hrows row hrow => hrows row (h.mem_iff.mp hrow)⟩

/-- A query that returns rows has no exception. -/
theorem Query.error?_of_returns {q : Query} {rows : List Doc} (h : q.Returns db rows) :
    q.error? db = none := by
  cases q with
  | find coll filter sort =>
    obtain ⟨hencodable, hreadable, hrows⟩ := h
    have hperm : rows.Perm (DocStore.find filter (db.docs coll)) := by
      split_ifs at hrows with hsort
      · exact hrows ▸ List.Perm.refl _
      · exact hrows.1
    simp only [Query.error?, if_pos hencodable, if_pos ((Readable.perm hperm).mp hreadable)]
  | aggregate coll pipeline =>
    have hrun : pipeline.Returns db.docs (db.docs coll) rows := h.1
    unfold Pipeline.Returns at hrun
    cases hresult : pipeline.run db.docs (db.docs coll) with
    | ok out =>
      rw [hresult] at hrun
      simp only [Query.error?, hresult, if_pos ((Readable.perm hrun.1).mp h.2)]
    | error e =>
      rw [hresult] at hrun
      exact hrun.elim

/-- The rows that are answered are those the query returns. -/
theorem rowsOf_eq_ok {q : Query} {rows : List Doc} :
    rowsOf ω q db = .ok rows ↔ q.Returns db ω.rows ∧ ω.rows = rows := by
  unfold rowsOf
  constructor
  · intro h
    cases herror : q.error? db with
    | some e =>
      rw [herror] at h
      cases h
    | none =>
      rw [herror] at h
      by_cases hreturns : q.Returns db ω.rows
      · rw [if_pos hreturns] at h
        exact ⟨hreturns, Except.ok.inj h⟩
      · rw [if_neg hreturns] at h
        cases h
  · rintro ⟨hreturns, rfl⟩
    rw [Query.error?_of_returns hreturns, if_pos hreturns]

/-- What a `GET` does when nothing is cached. -/
def onMiss (key : String) (q : Query) (enc : List Doc → Except PyError (List Doc)) : Api Reply := do
  let rows : List Doc ← Prog.perform (Call.query q)
  let docs ← liftExcept (enc rows)
  cache_set key (listOf docs)
  pure ⟨[("X-Cache", "MISS")], listOf docs⟩

/-- The reply to a miss. -/
def missReply (docs : List Doc) : Reply := ⟨[("X-Cache", "MISS")], listOf docs⟩

theorem eval_onMiss (key : String) (q : Query) (enc : List Doc → Except PyError (List Doc)) :
    ((onMiss key q enc).eval (alone ω r) (.alone db)).2 =
      (rowsOf ω q db).bind fun rows => (enc rows).map missReply := by
  have hquery : alone ω r (.query q) (.alone db) = (.alone db, rowsOf ω q db) := alone_query q
  cases hrows : rowsOf ω q db with
  | error e =>
    rw [hrows] at hquery
    have heval : (onMiss key q enc).eval (alone ω r) (.alone db) = (.alone db, .error e) :=
      Prog.eval_perform_bind_error hquery
    rw [heval]
    rfl
  | ok rows =>
    rw [hrows] at hquery
    have heval : (onMiss key q enc).eval (alone ω r) (.alone db) =
        (liftExcept (enc rows) >>= fun docs => cache_set key (listOf docs) >>= fun _ =>
          pure (missReply docs)).eval (alone ω r) (.alone db) :=
      Prog.eval_perform_bind hquery
    rw [heval]
    show _ = (enc rows).map missReply
    cases enc rows with
    | error e => rfl
    | ok docs => rfl

/-- The cached `GET`s after a miss. -/
theorem eval_miss {key : String} {f : Option Value → Api Reply} :
    (cache_get key >>= f).eval (alone ω r) (.alone db) = (f none).eval (alone ω r) (.alone db) :=
  Prog.eval_bind (eval_cache_get key)

variable [Bson]

/-- The rows of the query, encoded. -/
def Request.encodeDocs : Request → List Doc → Except PyError (List Doc)
  | posts_by_users, rows => .ok rows
  | _, rows => rows.mapM to_json

theorem optionalOid_error {value : Option String} {e : PyError} (h : optionalOid value = .error e) :
    e = .httpException 400 "Invalid ObjectId" [] := by
  unfold optionalOid at h
  cases hvalue : nonEmpty value with
  | none =>
    rw [hvalue] at h
    cases h
  | some v =>
    rw [hvalue] at h
    have hoid : (oid v).map some = .error e := h
    unfold oid at hoid
    cases hparse : Bson.parse? v with
    | none =>
      rw [hparse] at hoid
      cases hoid
      rfl
    | some id =>
      rw [hparse] at hoid
      cases hoid

/-- A cached `GET` that finds nothing in Redis. -/
theorem respond_get (h : r.cache_key.isSome = true) :
    respond ω r db =
      match r.query? with
      | none => .error (.httpException 400 "Invalid ObjectId" [])
      | some q => (rowsOf ω q db).bind fun rows => (r.encodeDocs rows).map missReply := by
  cases r with
  | get_users login min_age =>
    have hmiss : respond ω (.get_users login min_age) db =
        ((onMiss (usersKey login min_age) (.find .users (usersQuery login min_age) [])
          fun rows => rows.mapM to_json).eval (alone ω _) (.alone db)).2 :=
      congrArg Prod.snd (eval_miss (r := .get_users login min_age))
    rw [hmiss, eval_onMiss]
    rfl
  | get_posts author_id tag =>
    have hmiss : respond ω (.get_posts author_id tag) db =
        ((liftExcept (optionalOid author_id) >>= fun author =>
          onMiss (postsKey author_id tag) (.find .posts (postsQuery author tag)
            [("created_at", true)]) fun rows => rows.mapM to_json).eval
              (alone ω (.get_posts author_id tag)) (.alone db)).2 :=
      congrArg Prod.snd (eval_miss (r := .get_posts author_id tag))
    rw [hmiss]
    -- oid comes after the cache lookup and before the query
    cases hauthor : optionalOid author_id with
    | error e =>
      simp only [Request.query?, hauthor]
      rw [optionalOid_error hauthor]
      rfl
    | ok author =>
      simp only [Request.query?, hauthor]
      exact eval_onMiss _ _ _
  | posts_by_users =>
    have hmiss : respond ω .posts_by_users db =
        ((onMiss statsKey (.aggregate .posts pipeline) fun rows => .ok rows).eval
          (alone ω _) (.alone db)).2 :=
      congrArg Prod.snd (eval_miss (r := .posts_by_users))
    rw [hmiss, eval_onMiss]
    rfl
  | _ => cases h

theorem encode_eq (r : Request) (rows : List Doc) :
    r.encode rows = (r.encodeDocs rows).map listOf := by
  cases r <;> rfl

/-- What a cached `GET` caches is what it would answer. -/
theorem computes_iff (h : r.cache_key.isSome = true) {value : Value} :
    Computes r db value ↔
      ∃ ω reply, respond ω r db = .ok reply ∧ value = json_dumps reply.body := by
  constructor
  · rintro ⟨q, rows, body, hq, hreturns, hbody, rfl⟩
    rw [encode_eq] at hbody
    obtain ⟨docs, hdocs, hlist⟩ := Fallible.exists_of_bind hbody
    cases hlist
    -- the server chooses these rows
    have hrows : rowsOf ⟨.ofNat 0, rows, [], true⟩ q db = .ok rows := rowsOf_eq_ok.mpr ⟨hreturns, rfl⟩
    refine ⟨⟨.ofNat 0, rows, [], true⟩, missReply docs, ?_, rfl⟩
    rw [respond_get h, hq]
    show (rowsOf _ q db).bind _ = _
    rw [hrows]
    show (r.encodeDocs rows).map missReply = _
    rw [hdocs]
    rfl
  · rintro ⟨ω, reply, hrespond, rfl⟩
    rw [respond_get h] at hrespond
    cases hq : r.query? with
    | none =>
      rw [hq] at hrespond
      cases hrespond
    | some q =>
      rw [hq] at hrespond
      obtain ⟨rows, hrows, hreply⟩ := Fallible.exists_of_bind hrespond
      obtain ⟨docs, hdocs, heq⟩ := Fallible.exists_of_bind hreply
      cases heq
      obtain ⟨hreturns, rfl⟩ := rowsOf_eq_ok.mp hrows
      refine ⟨q, ω.rows, listOf docs, hq, hreturns, ?_, rfl⟩
      rw [encode_eq, hdocs]
      rfl

end SocialNetwork.MongoApi

import SocialNetwork.Lib.Runs
import SocialNetwork.Lib.Pool
import SocialNetwork.Lib.KeyValue
import SocialNetwork.MongoApi.Api

/-!
# Requests on Mongo and Redis

The system of `mongo-api`: any number of requests in flight on one database and one Redis. Every
call is one atomic step, a loop over `scan_iter` one step for each SCAN and each DEL. A call may
raise, before or after it took effect. Mongo gives out every id once. A document with a date that
no `datetime` holds cannot be read, and a query that selects one raises.

`monitor` is the protocol of one request: which cached answers its writes may change, and which
of them it has still to invalidate (`owed`).
-/

namespace SocialNetwork.MongoApi

open DocStore KeyValue

variable [Bson]

/-! ## What a request asks and caches -/

namespace Request

/-- The key a `GET` caches its answer under. -/
def cache_key : Request → Option String
  | get_users login min_age => some (usersKey login min_age)
  | get_posts author_id tag => some (postsKey author_id tag)
  | posts_by_users => some statsKey
  | _ => none

/-- What the invalidation of its answer deletes. -/
def cache_prefix : Request → Option String
  | get_users _ _ => some "users:"
  | get_posts _ _ => some "posts:"
  | posts_by_users => some "stats:"
  | _ => none

/-- The query of a cached `GET`. -/
def query? : Request → Option Query
  | get_users login min_age => some (.find .users (usersQuery login min_age) [])
  | get_posts author_id tag =>
    match optionalOid author_id with
    | .ok author => some (.find .posts (postsQuery author tag) [("created_at", true)])
    | .error _ => none
  | posts_by_users => some (.aggregate .posts pipeline)
  | _ => none

/-- What a cached `GET` makes of the rows of its query. -/
def encode : Request → List Doc → Except PyError Value
  | posts_by_users, rows => .ok (listOf rows)
  | _, rows => (rows.mapM to_json).map listOf

/-- The request changes a collection. -/
def writes : Request → Bool
  | get_users _ _ | get_posts _ _ | get_messages _ | posts_by_users => false
  | _ => true

end Request

/-- The value is what the request may compute and encode from the database. -/
def Computes (r : Request) (db : Db) (value : Value) : Prop :=
  ∃ q rows body, r.query? = some q ∧ q.Returns db rows ∧ r.encode rows = .ok body ∧
    value = json_dumps body

/-! ## The shared state -/

/-- A call of `cache_delete_prefix` that failed. -/
structure Failure where
  request : Request
  prefix_ : String
  /-- The entries that had been stored have smaller stamps. -/
  mark : Nat
  at_ : Nat
deriving DecidableEq

/-- Mongo, Redis and the clock, in milliseconds, and two histories: the invalidations that failed
and the answers given. An entry of Redis carries the request that stored it. -/
structure World where
  db : Db
  redis : Store Value Request
  now : Nat
  failures : List Failure
  answered : List (Request × Except PyError Reply)

/-- What is left open: the id of an inserted document, the order of rows, and the keys of a page
of a cursor. -/
structure Choice where
  id : ObjectId
  rows : List Doc
  keys : List String
  last : Bool

/-- How a call ends: it answers, or it raises after or before it took effect. -/
inductive Outcome
  | ok (ω : Choice)
  | raises (applied : Bool) (ω : Choice)

/-- The exception of a query that cannot be sent, fails, or has a row that cannot be read. -/
def Query.error? (db : Db) : Query → Option PyError
  | find coll filter _ =>
    if filter.encodable then
      if Readable (DocStore.find filter (db.docs coll)) then none else some .invalidBSON
    else some .overflowError
  | aggregate coll pipeline =>
    match pipeline.run db.docs (db.docs coll) with
    | .ok rows => if Readable rows then none else some .invalidBSON
    | .error _ => some .operationFailure

/-- What `find_one` answers when it finds this. -/
def readOne : Option Doc → Except PyError (Option Doc)
  | none => .ok none
  | some doc => if (Value.obj doc).decodable then .ok (some doc) else .error .invalidBSON

/-- The exception of a write that is refused. -/
def refusal (doc : Doc) : PyError :=
  if (Value.obj doc).encodable then .writeError else .overflowError

def setValue (value : Value) (e : Entry Value Request) : Entry Value Request :=
  { e with value := value }

/-- Give a live entry a new expiry. -/
def renew (now ttl : Nat) (e : Entry Value Request) : Entry Value Request :=
  if e.live now then { e with expires := some (now + ttl * 1000) } else e

/-- A call that is one step, made for a request; `none` where the choice is not possible. -/
def execute (ω : Choice) (l : Request) :
    (c : Call) → World → Option (World × Except PyError c.Answer)
  | .query q, w =>
    match q.error? w.db with
    | some e => some (w, .error e)
    | none => if q.Returns w.db ω.rows then some (w, .ok ω.rows) else none
  | .find_one coll filter, w => some (w, readOne (DocStore.findOne filter (w.db.docs coll)))
  | .insert_one coll doc, w =>
    if ω.id ∈ w.db.issued then none
    else
      match w.db.insert_one coll ω.id doc with
      | some db => some ({ w with db := db }, .ok ω.id)
      | none => some (w, .error (refusal doc))
  | .update_one coll filter update, w =>
    match w.db.update_one coll filter update with
    | some (n, db) => some ({ w with db := db }, .ok n)
    | none => some (w, .error (refusal update.set))
  | .delete_one coll filter, w =>
    some ({ w with db := (w.db.delete_one coll filter).2 }, .ok (w.db.delete_one coll filter).1)
  | .get key, w => some (w, .ok ((w.redis.lookup w.now key).map (·.value)))
  | .setex key ttl value, w =>
    some ({ w with redis := w.redis.put w.now key value (some (ttl * 1000)) l }, .ok ())
  | .delete_scanned _, _ => none
  | .incr key, w =>
    match w.redis.lookup w.now key with
    | none => some ({ w with redis := w.redis.put w.now key (.int 1) none l }, .ok (1 : Int))
    | some e =>
      match e.value with
      | .int n =>
        some ({ w with redis := w.redis.change key (setValue (.int (n + 1))) }, .ok (n + 1))
      | _ => some (w, .error .operationFailure)
  | .expire key ttl, w =>
    some ({ w with redis := w.redis.change key (renew w.now ttl) }, .ok ())
  | .utcnow, w => some (w, if isDate w.now then .ok w.now else .error .valueError)
  | .time, w => some (w, .ok w.now)

/-- An invalidation has failed. -/
def World.fail (w : World) (l : Request) (prefix_ : String) : World :=
  { w with failures := w.failures ++ [⟨l, prefix_, w.redis.next, w.now⟩] }

/-- The next key of the page is deleted. -/
def World.delNext (w : World) (sc : Scan) : World :=
  match sc.batch with
  | key :: _ => { w with redis := w.redis.del key }
  | [] => w

/-- One step of the loop over `scan_iter`: a SCAN, a DEL or the end. -/
def loopStep (l : Request) (prefix_ : String) (aux : Option Scan) (outcome : Outcome) (w : World) :
    Option (World × (Option Scan ⊕ Except PyError Unit)) :=
  let sc := aux.getD (Scan.begin_ w.redis)
  match outcome with
  | .ok ω =>
    if sc.batch ≠ [] then some (w.delNext sc, .inl (some sc.tail))
    else if sc.last then some (w, .inr (.ok ()))
    else if sc.Admits w.redis w.now prefix_ ω.keys ω.last then
      some (w, .inl (some (sc.page ω.keys ω.last)))
    else none
  | .raises applied _ =>
    if sc.batch = [] ∧ sc.last = true then none
    else some ((if applied then w.delNext sc else w).fail l prefix_,
      .inr (.error .connectionError))

def exec (l : Request) : (c : Call) → Option Scan → Outcome → World →
    Option (World × (Option Scan ⊕ Except PyError c.Answer))
  | .delete_scanned prefix_, aux, outcome, w => loopStep l prefix_ aux outcome w
  | c, _, .ok ω, w => (execute ω l c w).map fun x => (x.1, .inr x.2)
  | c, _, .raises true ω, w =>
    (execute ω l c w).map fun x => (x.1, .inr (.error .connectionError))
  | _, _, .raises false _, w => some (w, .inr (.error .connectionError))

def server : Pool.Server Request Call Call.Answer PyError (Option Scan) World Outcome where
  fresh := none
  exec := exec

/-! ## Steps -/

abbrev Task := Pool.Task Request Call Call.Answer PyError Reply (Option Scan)

abbrev State := Pool.Config World Request Call Call.Answer PyError Reply (Option Scan)

inductive Action
  /-- A request arrives. -/
  | request (r : Request)
  /-- The `i`-th request in flight makes one step of its next call. -/
  | call (i : Nat) (outcome : Outcome)
  /-- The `i`-th request is answered. -/
  | finish (i : Nat)
  /-- Time passes. -/
  | tick (ms : Nat)

/-- A database, and nothing in Redis. -/
def State.init (db : Db) : State := ⟨⟨db, Store.empty, 0, [], []⟩, []⟩

def step (s : State) : Action → Option State
  | .request r => some (Pool.spawn server r (handle r) s)
  | .call i outcome => Pool.advance server i outcome s
  | .finish i =>
    (Pool.retire i s).map fun x =>
      { x.2.2 with shared :=
        { x.2.2.shared with answered := x.2.2.shared.answered ++ [(x.1, x.2.1)] } }
  | .tick ms => some { s with shared := { s.shared with now := s.shared.now + ms } }

/-! ## A request alone -/

/-- What a call answers a request that is alone. -/
def alone (ω : Choice) (l : Request) (c : Call) (w : World) : World × Except PyError c.Answer :=
  match execute ω l c w with
  | some x => x
  | none => (w, .error .operationFailure)

/-- The answer of a request that is alone on the database, with nothing in Redis. -/
def respond (ω : Choice) (r : Request) (db : Db) : Except PyError Reply :=
  ((handle r).eval (alone ω r) ⟨db, Store.empty, 0, [], []⟩).2

end SocialNetwork.MongoApi

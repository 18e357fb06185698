import SocialNetwork.Lib.Prog
import SocialNetwork.Lib.Collection

/-!
# The event consumer (`event-service/consumer.py`)

`process_event` and `callback` as programs over the calls they make: the three collections of
the read model and the delivery's acknowledgement. A message body is what `json.loads` makes
of its bytes; `print` is left out, and so is the `_id` the store adds to a document, which the
consumer never reads.
-/

namespace SocialNetwork.EventService

open DocStore

/-- The exceptions that end `process_event` or `callback` early. -/
inductive PyError
  | keyError (key : String)
  | typeError
  | decodeError
  | mongoError
  | amqpError
deriving DecidableEq, Repr

/-- The collections the consumer uses. -/
inductive Coll
  | processed_events
  | user_activity_view
  | post_activity_view
deriving DecidableEq, Repr

/-- The calls to MongoDB and to the channel. -/
inductive Call
  | find_one (coll : Coll) (filter : Filter)
  | insert_one (coll : Coll) (doc : Doc)
  | update_one (coll : Coll) (filter : Filter) (update : Update) (upsert : Bool)
  | basic_ack
  | basic_nack (requeue : Bool)
deriving DecidableEq

/-- What a call answers; the consumer reads the answer of `find_one` only. -/
def Call.Answer : Call → Type
  | find_one .. => Option Doc
  | _ => Unit

/-- Python code of the consumer. -/
abbrev Py := Prog Call Call.Answer PyError

/-- A message body, as `json.loads` sees it. -/
inductive Body
  | invalid
  | json (v : Value)
deriving DecidableEq

def json_loads : Body → Py Value
  | .invalid => .raise .decodeError
  | .json v => .ret v

/-- The value under a key, where there is one. -/
def item? (v : Value) (key : String) : Option Value :=
  match v with
  | .obj fs => fs.lookup key
  | _ => none

/-- `v[key]`. -/
def subscript (v : Value) (key : String) : Py Value :=
  match v with
  | .obj fs =>
    match fs.lookup key with
    | some w => .ret w
    | none => .raise (.keyError key)
  | _ => .raise .typeError

def find_one (coll : Coll) (filter : Filter) : Py (Option Doc) :=
  Prog.perform (Call.find_one coll filter)

def insert_one (coll : Coll) (doc : Doc) : Py Unit :=
  Prog.perform (Call.insert_one coll doc)

def update_one (coll : Coll) (filter : Filter) (update : Update) (upsert : Bool) : Py Unit :=
  Prog.perform (Call.update_one coll filter update upsert)

def process_event (event : Value) : Py Unit := do
  let event_id ← subscript event "event_id"
  let event_type ← subscript event "event_type"
  let payload ← subscript event "payload"
  let exists_ ← find_one .processed_events (.field "event_id" event_id)
  if exists_.isSome then
    pure ()
  else
    insert_one .processed_events
      [("event_id", event_id),
        ("event_type", event_type),
        ("occurred_at", ← subscript event "occurred_at"),
        ("producer", ← subscript event "producer"),
        ("payload", payload)]
    if event_type = .str "UserCreated" then
      update_one .user_activity_view
        (.field "user_id" (← subscript payload "user_id"))
        { set := [("user_id", ← subscript payload "user_id"),
                  ("login", ← subscript payload "login"),
                  ("email", ← subscript payload "email")],
          setOnInsert := [("posts_count", .int 0),
                          ("messages_sent", .int 0),
                          ("likes_received", .int 0),
                          ("comments_count", .int 0)] }
        true
    else if event_type = .str "PostCreated" then
      update_one .user_activity_view
        (.field "user_id" (← subscript payload "author_id"))
        { inc := [("posts_count", 1)] }
        true
    else if event_type = .str "MessageSent" then
      update_one .user_activity_view
        (.field "user_id" (← subscript payload "from_user_id"))
        { inc := [("messages_sent", 1)] }
        true
    else if event_type = .str "PostLiked" then
      update_one .post_activity_view
        (.field "post_id" (← subscript payload "post_id"))
        { set := [("post_id", ← subscript payload "post_id")],
          inc := [("likes_count", 1)] }
        true
    else if event_type = .str "CommentAdded" then
      update_one .post_activity_view
        (.field "post_id" (← subscript payload "post_id"))
        { set := [("post_id", ← subscript payload "post_id")],
          inc := [("comments_count", 1)] }
        true
    else
      pure ()

/-- The delivery tag is the delivery the program runs for. -/
def callback (body : Body) : Py Unit :=
  Prog.tryCatch
    (do
      let event ← json_loads body
      process_event event
      Prog.perform Call.basic_ack)
    fun _ => Prog.perform (Call.basic_nack true)

/-! ## What the calls do -/

/-- The collections of the read model. -/
structure Db where
  processed_events : List Doc
  user_activity_view : List Doc
  post_activity_view : List Doc

namespace Db

def empty : Db := ⟨[], [], []⟩

def coll (db : Db) : Coll → List Doc
  | .processed_events => db.processed_events
  | .user_activity_view => db.user_activity_view
  | .post_activity_view => db.post_activity_view

def setColl (db : Db) (docs : List Doc) : Coll → Db
  | .processed_events => { db with processed_events := docs }
  | .user_activity_view => { db with user_activity_view := docs }
  | .post_activity_view => { db with post_activity_view := docs }

theorem coll_setColl (db : Db) (docs : List Doc) (c c' : Coll) :
    (db.setColl docs c).coll c' = if c' = c then docs else db.coll c' := by
  cases c <;> cases c' <;> rfl

/-- The effect of one call, and its answer. The acknowledgements do not concern the store. -/
def call : (c : Call) → Db → Db × Except PyError c.Answer
  | .find_one coll filter, db => (db, .ok (findOne filter (db.coll coll)))
  | .insert_one coll doc, db => (db.setColl (insertOne doc (db.coll coll)) coll, .ok ())
  | .update_one coll filter update upsert, db =>
    match updateOne filter update upsert (db.coll coll) with
    | some (_, docs) => (db.setColl docs coll, .ok ())
    | none => (db, .error .mongoError)
  | .basic_ack, db => (db, .ok ())
  | .basic_nack _, db => (db, .ok ())

end Db

/-- One consumer handles the bodies one after the other, without failures. -/
def consume (db : Db) (bodies : List Body) : Db :=
  bodies.foldl (fun db body => ((callback body).eval Db.call db).1) db

end SocialNetwork.EventService

import SocialNetwork.EventService.Events

/-!
# The producer (`event-service/producer.py`)

`publish_event` and `main` as programs over the calls they make to their channel. The id and
the time of an event come from outside: `uuid4` and `now` are calls too. The consumer's start-up
makes the other calls of a channel.
-/

namespace SocialNetwork.EventService

open DocStore

def EXCHANGE_NAME : String := "social.events"
def QUEUE_NAME : String := "read-model.events"

/-- The calls on a channel, and the two values a producer takes from outside. -/
inductive AmqpCall
  | uuid4
  | now
  | exchange_declare (exchange exchange_type : String) (durable : Bool)
  | queue_declare (queue : String) (durable : Bool)
  | queue_bind (exchange queue routing_key : String)
  | basic_qos (prefetch_count : Nat)
  | basic_consume (queue : String) (auto_ack : Bool)
  | basic_publish (exchange routing_key : String) (body : Body) (content_type : String)
    (delivery_mode : Nat)
deriving DecidableEq

def AmqpCall.Answer : AmqpCall → Type
  | uuid4 | now => String
  | _ => Unit

/-- Python code over a channel. -/
abbrev Amqp := Prog AmqpCall AmqpCall.Answer PyError

/-- The JSON value of an event. -/
def event (event_id event_type occurred_at producer : String) (payload : Value) : Value :=
  .obj [("event_id", .str event_id), ("event_type", .str event_type),
    ("occurred_at", .str occurred_at), ("producer", .str producer), ("payload", payload)]

/-- Builds the event and publishes it. -/
def publish_event (routing_key event_type producer : String) (payload : Value) : Amqp Unit := do
  let event_id : String ← Prog.perform AmqpCall.uuid4
  let occurred_at : String ← Prog.perform AmqpCall.now
  Prog.perform (AmqpCall.basic_publish EXCHANGE_NAME routing_key
    (.json (event event_id event_type occurred_at producer payload)) "application/json" 2)

namespace Producer

/-- `datetime.now(timezone.utc).isoformat()`. -/
def now : Amqp String := Prog.perform AmqpCall.now

def exchange_declare : Amqp Unit :=
  Prog.perform (AmqpCall.exchange_declare EXCHANGE_NAME "topic" true)

def main : Amqp Unit := do
  exchange_declare
  publish_event "user.created" "UserCreated" "user-service"
    (.obj [("user_id", .str "u-1"), ("login", .str "alice"),
      ("email", .str "alice@example.com"), ("created_at", .str (← now))])
  publish_event "post.created" "PostCreated" "wall-service"
    (.obj [("post_id", .str "p-1"), ("author_id", .str "u-1"),
      ("content", .str "Hello from Event-Driven architecture"),
      ("tags", .arr [.str "event-driven", .str "rabbitmq"]), ("created_at", .str (← now))])
  publish_event "message.sent" "MessageSent" "chat-service"
    (.obj [("message_id", .str "m-1"), ("from_user_id", .str "u-1"),
      ("to_user_id", .str "u-2"), ("text", .str "Hello!"), ("created_at", .str (← now))])
  publish_event "post.liked" "PostLiked" "wall-service"
    (.obj [("post_id", .str "p-1"), ("user_id", .str "u-2"), ("liked_at", .str (← now))])
  publish_event "comment.added" "CommentAdded" "wall-service"
    (.obj [("post_id", .str "p-1"), ("user_id", .str "u-2"), ("comment_id", .str "c-1"),
      ("text", .str "Nice post!"), ("created_at", .str (← now))])

end Producer

/-! ## What a published event is -/

section Published

variable {event_id event_type occurred_at producer : String} {payload : Value}

/-- What `publish_event` publishes has scalar ids when the document of its branch is named by
one. -/
theorem scalarIds_event
    (h : ∀ key ∈ (branchFields event_type).head?, ∀ w, item? payload key = some w →
      w.scalar = true) :
    ScalarIds (.json (event event_id event_type occurred_at producer payload)) where
  event_id w hw := by
    have hw' : Value.str event_id = w := Option.some.inj hw
    rw [← hw']
    rfl
  payload event_type' payload' hty hpl := by
    have hty' : event_type = event_type' := Value.str.inj (Option.some.inj hty)
    have hpl' : payload = payload' := Option.some.inj hpl
    rw [← hty', ← hpl']
    exact h

/-- What `publish_event` publishes is well formed when its payload has what its branch reads. -/
theorem wellFormed_event (hne : branchFields event_type ≠ [])
    (hmem : ∀ key ∈ branchFields event_type, (item? payload key).isSome) :
    WellFormed (.json (event event_id event_type occurred_at producer payload)) where
  event_id := rfl
  occurred_at := rfl
  producer := rfl
  branch := ⟨event_type, payload, rfl, rfl, hne, hmem⟩

end Published

/-- A payload of strings. -/
theorem scalar_of_strings {fs : List (String × String)} {key : String} {w : Value}
    (hw : item? (.obj (fs.map fun f => (f.1, .str f.2))) key = some w) : w.scalar = true := by
  rw [item?, List.lookup_eq_some_iff] at hw
  obtain ⟨l₁, l₂, hfs, -⟩ := hw
  have hmem : (key, w) ∈ fs.map fun f => (f.1, Value.str f.2) := by
    rw [hfs]
    exact List.mem_append_right _ (List.mem_cons_self ..)
  obtain ⟨f, -, hf⟩ := List.mem_map.mp hmem
  obtain rfl : Value.str f.2 = w := congrArg Prod.snd hf
  rfl

/-! ## Sample events -/

/-- A published event with a payload of strings. -/
def sample (event_id event_type : String) (payload : List (String × String)) : Body :=
  .json (event event_id event_type "2026-05-19T10:00:00Z" "wall-service"
    (.obj (payload.map fun f => (f.1, .str f.2))))

def userCreated (event_id user_id login : String) : Body :=
  sample event_id "UserCreated" [("user_id", user_id), ("login", login),
    ("email", "alice@example.com")]

def postCreated (event_id author_id : String) : Body :=
  sample event_id "PostCreated" [("post_id", "p-1"), ("author_id", author_id)]

/-- The ids of a sample are strings. -/
theorem scalarIds_sample (event_id event_type : String) (payload : List (String × String)) :
    ScalarIds (sample event_id event_type payload) :=
  scalarIds_event fun _ _ _ hw => scalar_of_strings hw

/-- The ids of the demo's first event are strings. -/
theorem scalarIds_userCreated (event_id user_id login : String) :
    ScalarIds (userCreated event_id user_id login) := scalarIds_sample _ _ _

theorem scalarIds_postCreated (event_id author_id : String) :
    ScalarIds (postCreated event_id author_id) := scalarIds_sample _ _ _

/-- The consumer finds every field that it reads. -/
theorem wellFormed_userCreated (event_id user_id login : String) :
    WellFormed (userCreated event_id user_id login) :=
  wellFormed_event (by decide) (by simp [branchFields, item?])

theorem wellFormed_postCreated (event_id author_id : String) :
    WellFormed (postCreated event_id author_id) :=
  wellFormed_event (by decide) (by simp [branchFields, item?])

end SocialNetwork.EventService

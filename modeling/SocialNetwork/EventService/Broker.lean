import SocialNetwork.Lib.Runs
import SocialNetwork.Lib.Pool
import SocialNetwork.Lib.Topic
import SocialNetwork.EventService.Consumers
import SocialNetwork.EventService.Producer

/-!
# Publishing and starting up

The system of `producer.py` and the start-up of `consumer.py` on a broker. The broker routes a
message when it is published, to the queues that a binding of the exchange matches at that
time; a message that no queue takes is dropped. Queued messages stay until they are
acknowledged. Producers and consumers run interleaved, call by call, and may die at any time;
exchanges, queues, bindings and messages survive that.
-/

namespace SocialNetwork.EventService

/-! ## Programs -/

/-- What a producer publishes with one `publish_event`. -/
structure Publication where
  routing_key : String
  event_type : String
  producer : String
  payload : DocStore.Value
deriving DecidableEq

namespace Producer

/-- The producer publishes its events, one after another. -/
def publishAll : List Publication → Amqp Unit
  | [] => pure ()
  | e :: es => do
    publish_event e.routing_key e.event_type e.producer e.payload
    publishAll es

/-- A producer that declares the exchange and publishes some events. -/
def run (events : List Publication) : Amqp Unit := do
  exchange_declare
  publishAll events

end Producer

namespace Consumer

/-- The patterns that the consumer binds. -/
def routing_keys : List String := ["user.*", "post.*", "message.*", "comment.*"]

/-- The consumer binds one pattern after another. -/
def bindAll : List String → Amqp Unit
  | [] => pure ()
  | routing_key :: keys => do
    Prog.perform (AmqpCall.queue_bind EXCHANGE_NAME QUEUE_NAME routing_key)
    bindAll keys

/-- The consumer up to `start_consuming`. -/
def main : Amqp Unit := do
  Prog.perform (AmqpCall.exchange_declare EXCHANGE_NAME "topic" true)
  Prog.perform (AmqpCall.queue_declare QUEUE_NAME true)
  bindAll routing_keys
  Prog.perform (AmqpCall.basic_qos 1)
  Prog.perform (AmqpCall.basic_consume QUEUE_NAME false)

end Consumer

/-- Who takes part. -/
inductive Party
  | producer (events : List Publication)
  | consumer (proc : Nat)
deriving DecidableEq

/-- The program that a party runs. -/
def Party.program : Party → Amqp Unit
  | producer events => Producer.run events
  | consumer _ => Consumer.main

/-! ## The broker -/

structure Binding where
  exchange : String
  queue : String
  key : String
deriving DecidableEq, Repr

/-- A message in a queue: the number of its publication, and its status. -/
structure Queued where
  queue : String
  publication : Nat
  status : Status
deriving DecidableEq, Repr

structure Broker where
  exchanges : List String
  queues : List String
  bindings : List Binding
  /-- Processes that consume a queue. -/
  consumers : List (Nat × String)
  /-- Everything published so far, routed or not. -/
  published : List Body
  messages : List Queued

namespace Broker

def init : Broker := ⟨[], [], [], [], [], []⟩

/-- The queues that take a message published now. -/
def targets (w : Broker) (exchange routing_key : String) : List String :=
  w.queues.filter fun q =>
    w.bindings.any fun b =>
      decide (b.exchange = exchange) && decide (b.queue = q) && Topic.routes b.key routing_key

/-- A message goes to the queues whose patterns match. -/
def publish (w : Broker) (exchange routing_key : String) (body : Body) : Broker :=
  { w with
    published := w.published ++ [body]
    messages := w.messages ++
      (w.targets exchange routing_key).map fun q => ⟨q, w.published.length, .ready⟩ }

def add {α : Type} [DecidableEq α] (x : α) (xs : List α) : List α :=
  if x ∈ xs then xs else xs ++ [x]

/-- A call on a channel. Declaring and binding twice is no error; using an exchange or a queue
that is not there is. -/
def call (party : Party) (answer : String) : (c : AmqpCall) → Broker →
    Broker × Except PyError c.Answer
  | .uuid4, w => (w, .ok answer)
  | .now, w => (w, .ok answer)
  | .exchange_declare exchange _ _, w => ({ w with exchanges := add exchange w.exchanges }, .ok ())
  | .queue_declare queue _, w => ({ w with queues := add queue w.queues }, .ok ())
  | .queue_bind exchange queue routing_key, w =>
    if exchange ∈ w.exchanges ∧ queue ∈ w.queues then
      ({ w with bindings := add ⟨exchange, queue, routing_key⟩ w.bindings }, .ok ())
    else (w, .error .amqpError)
  | .basic_qos _, w => (w, .ok ())
  | .basic_consume queue _, w =>
    match party with
    | .consumer proc =>
      if queue ∈ w.queues then
        ({ w with consumers := add (proc, queue) w.consumers }, .ok ())
      else (w, .error .amqpError)
    | .producer _ => (w, .error .amqpError)
  | .basic_publish exchange routing_key body _ _, w =>
    if exchange ∈ w.exchanges then (w.publish exchange routing_key body, .ok ())
    else (w, .error .amqpError)

/-- The connection of a process is gone. -/
def disconnect (w : Broker) (proc : Nat) : Broker :=
  { w with
    consumers := w.consumers.filter fun x => x.1 ≠ proc
    messages := w.messages.map fun m =>
      if m.status = .unacked proc then { m with status := .ready } else m }

end Broker

/-- The broker, as the server of the parties' calls. -/
def Broker.server : Pool.Server Party AmqpCall AmqpCall.Answer PyError Unit Broker String :=
  Pool.Server.atomic fun party c answer w => some (w.call party answer c)

/-! ## Steps -/

namespace Startup

abbrev Task := Pool.Task Party AmqpCall AmqpCall.Answer PyError Unit Unit

abbrev State := Pool.Config Broker Party AmqpCall AmqpCall.Answer PyError Unit Unit

inductive Action
  /-- A producer or a consumer starts, or starts again. -/
  | start (party : Party)
  /-- The `i`-th program makes its next call; `answer` is what comes from outside. -/
  | call (i : Nat) (answer : String)
  /-- The broker gives a ready message to a process that consumes its queue. -/
  | deliver (proc tag : Nat)
  /-- The process acknowledges the message, or rejects it with `requeue=True`. -/
  | settle (proc tag : Nat) (ack : Bool)
  /-- The `i`-th program dies, or its process ends. -/
  | stop (i : Nat)
deriving DecidableEq

def init : State := ⟨Broker.init, []⟩

def step (s : State) : Action → Option State
  | .start party => some (Pool.spawn Broker.server party party.program s)
  | .call i answer => Pool.advance Broker.server i answer s
  | .deliver proc tag =>
    match s.shared.messages[tag]? with
    | none => none
    | some m =>
      -- `prefetch_count=1`: one unacknowledged message for a process
      if m.status = .ready ∧ (proc, m.queue) ∈ s.shared.consumers ∧
          ∀ m' ∈ s.shared.messages, m'.status ≠ .unacked proc then
        some { s with shared :=
          { s.shared with
            messages := s.shared.messages.modify tag fun m => { m with status := .unacked proc } } }
      else none
  | .settle proc tag ack =>
    match s.shared.messages[tag]? with
    | none => none
    | some m =>
      if m.status = .unacked proc then
        some { s with shared :=
          { s.shared with
            messages := s.shared.messages.modify tag fun m =>
              { m with status := if ack then .acked else .ready } } }
      else none
  | .stop i =>
    match s.tasks[i]? with
    | none => none
    | some t =>
      match t.label with
      | .producer _ => some { s with tasks := s.tasks.eraseIdx i }
      | .consumer proc => some ⟨s.shared.disconnect proc, s.tasks.eraseIdx i⟩

end Startup

end SocialNetwork.EventService

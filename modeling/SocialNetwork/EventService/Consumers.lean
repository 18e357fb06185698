import SocialNetwork.Lib.Runs
import SocialNetwork.Lib.Pool
import SocialNetwork.EventService.ReadModel

/-!
# Consumers on the queue

The system of `event-service`: a queue of published messages, `n` consumer processes that run
`callback` on one delivery at a time (`prefetch_count=1`), and the collections they share.
Between any two calls another process may move, a process may die and be restarted, and the
broker may drop a connection and redeliver what was unacknowledged on it. Any call may raise,
before or after it took effect.
-/

namespace SocialNetwork.EventService

open DocStore

/-! ## The queue -/

inductive Status
  | ready
  /-- Delivered on the connection of a process. -/
  | unacked (proc : Nat)
  | acked
  /-- Rejected without requeue. -/
  | discarded
deriving DecidableEq, Repr

structure Message where
  body : Body
  status : Status
deriving DecidableEq

/-- What a callback runs for: a process and the message it was given. -/
structure Delivery where
  proc : Nat
  tag : Nat
  body : Body

/-- An acknowledgement takes effect on a message that is unacknowledged on its connection. -/
def settle (l : Delivery) (status : Status) (messages : List Message) : List Message :=
  messages.modify l.tag fun m => if m.status = .unacked l.proc then { m with status := status } else m

/-- The connection of a process is gone: what was unacknowledged on it is ready again. -/
def requeue (proc : Nat) (messages : List Message) : List Message :=
  messages.map fun m => if m.status = .unacked proc then { m with status := .ready } else m

/-! ## The shared state -/

/-- A record that an `update_one` was executed, and whether it took effect. -/
structure Executed where
  body : Body
  applied : Bool
deriving DecidableEq

/-- The store, the queue, and two histories: the `update_one` calls that were executed, and the
deliveries that were made. -/
structure World where
  db : Db
  messages : List Message
  executed : List Executed
  delivered : List Body

namespace World

def init : World := ⟨Db.empty, [], [], []⟩

/-- A call takes effect on the store or on the queue; an `update_one` is recorded. -/
def perform (l : Delivery) : (c : Call) → World → World × Except PyError c.Answer
  | .find_one coll filter, w =>
    let x := Db.call (.find_one coll filter) w.db
    ({ w with db := x.1 }, x.2)
  | .insert_one coll doc, w =>
    let x := Db.call (.insert_one coll doc) w.db
    ({ w with db := x.1 }, x.2)
  | .update_one coll filter update upsert, w =>
    let x := Db.call (.update_one coll filter update upsert) w.db
    ({ w with db := x.1, executed := w.executed ++ [⟨l.body, x.2.isOk⟩] }, x.2)
  | .basic_ack, w => ({ w with messages := settle l .acked w.messages }, .ok ())
  | .basic_nack true, w => ({ w with messages := settle l .ready w.messages }, .ok ())
  | .basic_nack false, w => ({ w with messages := settle l .discarded w.messages }, .ok ())

/-- A call is executed without taking effect. -/
def attempt (l : Delivery) : Call → World → World
  | .update_one .., w => { w with executed := w.executed ++ [⟨l.body, false⟩] }
  | _, w => w

end World

/-- How a call ends: it answers, or it raises after or before it took effect. -/
inductive Outcome
  | ok
  | raises (applied : Bool)
deriving DecidableEq, Repr

/-- The exception of a call that fails. -/
def Call.fault : Call → PyError
  | find_one .. | insert_one .. | update_one .. => .mongoError
  | basic_ack | basic_nack _ => .amqpError

/-- The calls of the consumers are atomic. -/
def server : Pool.Server Delivery Call Call.Answer PyError Unit World Outcome :=
  Pool.Server.atomic fun l c ω w =>
    match ω with
    | .ok => some (w.perform l c)
    | .raises true => some ((w.perform l c).1, .error c.fault)
    | .raises false => some (w.attempt l c, .error c.fault)

/-! ## Steps -/

abbrev Task := Pool.Task Delivery Call Call.Answer PyError Unit Unit

abbrev State := Pool.Config World Delivery Call Call.Answer PyError Unit Unit

inductive Action
  | publish (body : Body)
  /-- The broker gives a ready message to an idle process. -/
  | deliver (proc tag : Nat)
  /-- The `i`-th running callback makes its next call. -/
  | call (i : Nat) (ω : Outcome)
  /-- The `i`-th callback has returned; if it raised, its process ends and is restarted. -/
  | finish (i : Nat)
  /-- The process of the `i`-th callback dies and is restarted. -/
  | crash (i : Nat)
  /-- The broker drops the connection of a process, which goes on running. -/
  | drop (proc : Nat)
deriving DecidableEq

/-- Nothing has been published yet. -/
def State.init : State := ⟨World.init, []⟩

/-- The system with `n` consumer processes. -/
def step (n : Nat) (s : State) : Action → Option State
  | .publish body =>
    some { s with shared :=
      { s.shared with messages := s.shared.messages ++ [⟨body, .ready⟩] } }
  | .deliver proc tag =>
    match s.shared.messages[tag]? with
    | none => none
    | some m =>
      if m.status = .ready ∧ proc < n ∧ ∀ t ∈ s.tasks, t.label.proc ≠ proc then
        some (Pool.spawn server ⟨proc, tag, m.body⟩ (callback m.body)
          { s with shared :=
            { s.shared with
              messages := s.shared.messages.modify tag fun m => { m with status := .unacked proc }
              delivered := s.shared.delivered ++ [m.body] } })
      else none
  | .call i ω => Pool.advance server i ω s
  | .finish i =>
    match Pool.retire i s with
    | none => none
    | some (_, .ok _, s') => some s'
    | some (l, .error _, s') =>
      some { s' with shared := { s'.shared with messages := requeue l.proc s'.shared.messages } }
  | .crash i =>
    match s.tasks[i]? with
    | none => none
    | some t =>
      some ⟨{ s.shared with messages := requeue t.label.proc s.shared.messages },
        s.tasks.eraseIdx i⟩
  | .drop proc =>
    some { s with shared := { s.shared with messages := requeue proc s.shared.messages } }

/-- What may be published: a body whose ids are scalars. -/
def Action.admissible : Action → Prop
  | publish body => ScalarIds body
  | _ => True

/-! ## What a call does, phase by phase -/

/-- The documents recorded under an event id. -/
def Db.recorded (db : Db) (id : Key) : List Doc :=
  find (.field "event_id" id.val) db.processed_events

/-- The calls of one delivery that its protocol allows, and what they do. -/
inductive Effect (l : Delivery) (w : World) : Call → Outcome → Phase → World → Phase → Prop
  | miss {coll filter id} (hid : l.body.event_id? = some id) (h : w.db.recorded id = []) :
    Effect l w (.find_one coll filter) .ok .start w .absent
  | hit {coll filter id} (hid : l.body.event_id? = some id) (h : w.db.recorded id ≠ []) :
    Effect l w (.find_one coll filter) .ok .start w .duplicate
  | record {doc ω id} (hω : ω = .ok ∨ ω = .raises true) (hid : l.body.event_id? = some id)
    (hdoc : doc.get "event_id" = some id.val) :
    Effect l w (.insert_one .processed_events doc) ω .absent
      { w with db := { w.db with processed_events := w.db.processed_events ++ [doc] } }
      (if ω = .ok then .recorded else .failed)
  | project {coll filter update upsert ω id k db} (hω : ω = .ok ∨ ω = .raises true)
    (hid : l.body.event_id? = some id) (hk : l.body.kind? = some k)
    (hdb : Db.call k.call w.db = (db, .ok ())) :
    Effect l w (.update_one coll filter update upsert) ω .recorded
      { w with db := db, executed := w.executed ++ [⟨l.body, true⟩] }
      (if ω = .ok then .projected else .failed)
  | miscarry {coll filter update upsert id k} (hid : l.body.event_id? = some id)
    (hk : l.body.kind? = some k) :
    Effect l w (.update_one coll filter update upsert) (.raises false) .recorded
      { w with executed := w.executed ++ [⟨l.body, false⟩] } .failed
  | ack {ω g} (hω : ω = .ok ∨ ω = .raises true) (hg : g.done l.body) :
    Effect l w .basic_ack ω g { w with messages := settle l .acked w.messages }
      (if ω = .ok then .settled else .failed)
  | nack {ω g} (hω : ω = .ok ∨ ω = .raises true) :
    Effect l w (.basic_nack true) ω g { w with messages := settle l .ready w.messages }
      (if ω = .ok then .settled else .failed)
  | unread {coll filter b g} : Effect l w (.find_one coll filter) (.raises b) g w .failed
  | fault {c g} (hc : ∀ coll filter update upsert, c ≠ .update_one coll filter update upsert) :
    Effect l w c (.raises false) g w .failed

/-- What a call answers, outcome by outcome. -/
theorem exec_eq_some {l : Delivery} {w w' : World} {c : Call} {ω : Outcome}
    {r : Except PyError c.Answer} (h : server.exec l c () ω w = some (w', .inr r)) :
    (ω = .ok ∧ w.perform l c = (w', r)) ∨
      (ω = .raises true ∧ (w.perform l c).1 = w' ∧ r = .error c.fault) ∨
      (ω = .raises false ∧ w.attempt l c = w' ∧ r = .error c.fault) := by
  simp only [server, Pool.Server.atomic] at h
  rcases ω with _ | _ | _
  · obtain ⟨x, hx, he⟩ := Option.map_eq_some_iff.mp h
    cases hx
    cases he
    exact .inl ⟨rfl, rfl⟩
  · cases h
    exact .inr (.inr ⟨rfl, rfl, rfl⟩)
  · cases h
    exact .inr (.inl ⟨rfl, rfl, rfl⟩)

/-- The calls a delivery makes within its protocol do what `Effect` says. -/
theorem effect_of_allows {l : Delivery} {w w' : World} {c : Call} {ω : Outcome} {g : Phase}
    {r : Except PyError c.Answer} (hv : Views w.db) (hok : g.allows l.body c)
    (h : server.exec l c () ω w = some (w', .inr r)) :
    Effect l w c ω g w' (Phase.after c r) := by
  have hexec := exec_eq_some h
  -- for each call: it was answered, it raised after taking effect, or it raised before
  cases c with
  | find_one coll filter =>
    obtain ⟨rfl, rfl, id, hid, rfl⟩ := hok
    rcases hexec with ⟨rfl, he⟩ | ⟨rfl, he, rfl⟩ | ⟨rfl, he, rfl⟩
    · cases he
      simp only [Db.call]
      rcases hf : findOne (.field "event_id" id.val) (w.db.coll .processed_events) with _ | d
      · exact .miss hid (List.filter_eq_nil_iff.mpr (List.find?_eq_none.mp hf))
      · have hd : d ∈ w.db.recorded id :=
          List.mem_filter.mpr ⟨List.mem_of_find?_eq_some hf, List.find?_some hf⟩
        exact .hit hid (List.ne_nil_of_mem hd)
    · subst he
      exact .unread
    · subst he
      exact .unread
  | insert_one coll doc =>
    obtain ⟨rfl, rfl, id, hid, hdoc⟩ := hok
    rcases hexec with ⟨rfl, he⟩ | ⟨rfl, he, rfl⟩ | ⟨rfl, he, rfl⟩
    · cases he
      exact .record (.inl rfl) hid hdoc
    · subst he
      exact .record (.inr rfl) hid hdoc
    · subst he
      exact .fault fun _ _ _ _ hc => by cases hc
  | update_one coll filter update upsert =>
    obtain ⟨rfl, hid, k, hk, hc⟩ := hok
    obtain ⟨id, hid⟩ := Option.isSome_iff_exists.mp hid
    simp only [EventKind.call, Call.update_one.injEq] at hc
    obtain ⟨rfl, rfl, rfl, rfl⟩ := hc
    obtain ⟨db, hdb, -⟩ := hv.project k
    have hperform : w.perform l k.call =
        ({ w with db := db, executed := w.executed ++ [⟨l.body, true⟩] }, .ok ()) := by
      have hdb' : Db.call (.update_one k.view (.field k.view.keyField k.key.val) k.update true)
          w.db = (db, .ok ()) := hdb
      simp only [World.perform, EventKind.call, hdb']
      rfl
    rcases hexec with ⟨rfl, he⟩ | ⟨rfl, he, rfl⟩ | ⟨rfl, he, rfl⟩
    · cases hperform.symm.trans he
      exact .project (.inl rfl) hid hk hdb
    · cases (congrArg Prod.fst hperform).symm.trans he
      exact .project (.inr rfl) hid hk hdb
    · subst he
      exact .miscarry hid hk
  | basic_ack =>
    rcases hexec with ⟨rfl, he⟩ | ⟨rfl, he, rfl⟩ | ⟨rfl, he, rfl⟩
    · cases he
      exact .ack (.inl rfl) hok
    · subst he
      exact .ack (.inr rfl) hok
    · subst he
      exact .fault fun _ _ _ _ hc => by cases hc
  | basic_nack requeue =>
    obtain ⟨rfl, -⟩ := hok
    rcases hexec with ⟨rfl, he⟩ | ⟨rfl, he, rfl⟩ | ⟨rfl, he, rfl⟩
    · cases he
      exact .nack (.inl rfl)
    · subst he
      exact .nack (.inr rfl)
    · subst he
      exact .fault fun _ _ _ _ hc => by cases hc

end SocialNetwork.EventService

import SocialNetwork.EventService.Producer
import SocialNetwork.EventService.Rejection
import Mathlib.Logic.Function.Iterate

/-!
# Events that are rejected

What `process_event_result` means for a store and for a queue: an event that is rejected after it
was recorded leaves its record behind, and the delivery that follows takes it for a duplicate;
an event that is rejected before it is recorded comes back to the head of the queue for ever.
-/

namespace SocialNetwork.EventService

open DocStore

variable {m : Mongo} {event : Value} {h : Handling} {db : Db} {b : Body} {bs : List Body}

/-! ## The store after a rejection -/

/-- **Rejections and the store.** `process_event` leaves the collections as they were whenever it
raises, just if the event is known, or cannot be recorded, or has what its branch reads and an
`update_one` that MongoDB takes. -/
theorem rejection_leaves_no_trace_iff (m : Mongo) (event : Value) (h : Handling) :
    (∀ e, ((process_event event).eval m.call h).2 = .error e →
        ((process_event event).eval m.call h).1.db = h.db) ↔
      m.known h.db.processed_events event = true ∨ m.record? event = none ∨
        (m.project event h.db).isSome := by
  have hresult := process_event_result m event h
  generalize (process_event event).eval m.call h = r at hresult
  cases hresult with
  | duplicate hknown => exact ⟨fun _ => .inl hknown, fun _ e he => nomatch he⟩
  | rejected hnew hrecord err => exact ⟨fun _ => .inr (.inl hrecord), fun _ _ _ => rfl⟩
  | halfway hnew hrecord hbranch err =>
    constructor
    · intro hsame
      -- the record is one document more
      have hdocs := congrArg Db.processed_events (hsame err rfl)
      have hlength := congrArg List.length hdocs
      simp only [List.length_append, List.length_singleton] at hlength
      omega
    · rintro (hknown | hnone | hcomplete)
      · rw [hnew] at hknown
        cases hknown
      · rw [hrecord] at hnone
        cases hnone
      · rw [hbranch] at hcomplete
        cases hcomplete
  | processed hnew hrecord hbranch =>
    exact ⟨fun _ => .inr (.inr (Option.isSome_of_mem hbranch)), fun _ e he => nomatch he⟩

/-- A post whose payload has no author. -/
def authorless : Body := sample "e-1" "PostCreated" [("post_id", "p-1")]

theorem authorless_leaves_a_trace :
    ∃ e, ((process_event authorless.value).eval Mongo.standard.call ⟨Db.empty, .ready⟩).2 =
        .error e ∧
      (((process_event authorless.value).eval Mongo.standard.call ⟨Db.empty, .ready⟩).1.db.recorded
        "e-1").length = 1 :=
  ⟨.keyError "author_id", rfl, by decide⟩

/-- A complete payload leaves a trace as well, when MongoDB refuses to increment a text. -/
example :
    let db : Db := ⟨[], [[("user_id", .str "u-1"), ("posts_count", .str "x")]], []⟩
    let r := (process_event (postCreated "e-1" "u-1").value).eval Mongo.standard.call ⟨db, .ready⟩
    r.2 = .error .mongoError ∧ (r.1.db.recorded "e-1").length = 1 := by
  decide

/-! ## Deliveries -/

/-- A body is delivered, and the callback runs. -/
def Mongo.deliver (m : Mongo) (b : Body) (db : Db) : Handling :=
  ((callback b).eval m.call ⟨db, .unacked 0⟩).1

/-- The head of the queue is delivered: acknowledged it leaves the queue, rejected with requeue
it is where it was. -/
def Mongo.deliverHead (m : Mongo) : Db × List Body → Db × List Body
  | (db, []) => (db, [])
  | (db, b :: bs) =>
    ((m.deliver b db).db,
      match (m.deliver b db).settled with
      | .acked | .discarded => bs
      | .ready | .unacked _ => b :: bs)

/-- What becomes of a body whose processing returns. -/
theorem deliver_of_ok {v : Value} {h : Handling}
    (hp : (process_event v).eval m.call ⟨db, .unacked 0⟩ = (h, .ok ())) :
    m.deliver (.json v) db = { h with settled := .acked } := by
  have hbody : (process_event v >>= fun _ => Prog.perform Call.basic_ack).eval m.call
      ⟨db, .unacked 0⟩ = ({ h with settled := .acked }, .ok ()) := by
    rw [Prog.eval_bind hp]
    rfl
  exact congrArg Prod.fst (Prog.eval_tryCatch hbody)

/-- What becomes of a body whose processing raises. -/
theorem deliver_of_error {v : Value} {h : Handling} {e : PyError}
    (hp : (process_event v).eval m.call ⟨db, .unacked 0⟩ = (h, .error e)) :
    m.deliver (.json v) db = { h with settled := .ready } := by
  have hbody : (process_event v >>= fun _ => Prog.perform Call.basic_ack).eval m.call
      ⟨db, .unacked 0⟩ = (h, .error e) := Prog.eval_bind_error hp
  exact congrArg Prod.fst (Prog.eval_tryCatch_error hbody)

/-- The four things that can happen to a body. -/
inductive Delivered (m : Mongo) (b : Body) (db : Db) : Handling → Prop
  | duplicate (hknown : m.known db.processed_events b.value = true) :
    Delivered m b db ⟨db, .acked⟩
  | rejected (hnew : m.known db.processed_events b.value = false)
    (hrecord : m.record? b.value = none) : Delivered m b db ⟨db, .ready⟩
  | halfway (hnew : m.known db.processed_events b.value = false) {doc : Doc}
    (hrecord : m.record? b.value = some doc) (hbranch : m.project b.value db = none) :
    Delivered m b db ⟨{ db with processed_events := db.processed_events ++ [doc] }, .ready⟩
  | processed (hnew : m.known db.processed_events b.value = false) {doc : Doc}
    (hrecord : m.record? b.value = some doc) {db' : Db} (hbranch : m.project b.value db = some db') :
    Delivered m b db ⟨{ db' with processed_events := db.processed_events ++ [doc] }, .acked⟩

theorem deliver_result (m : Mongo) (b : Body) (db : Db) : Delivered m b db (m.deliver b db) := by
  cases b with
  | invalid => exact .rejected rfl rfl
  | json v =>
    have hresult := process_event_result m v ⟨db, .unacked 0⟩
    generalize hp : (process_event v).eval m.call ⟨db, .unacked 0⟩ = r at hresult
    cases hresult with
    | duplicate hknown =>
      rw [deliver_of_ok hp]
      exact .duplicate hknown
    | rejected hnew hrecord err =>
      rw [deliver_of_error hp]
      exact .rejected hnew hrecord
    | halfway hnew hrecord hbranch err =>
      rw [deliver_of_error hp]
      exact .halfway hnew hrecord hbranch
    | processed hnew hrecord hbranch =>
      rw [deliver_of_ok hp]
      exact .processed hnew hrecord hbranch

/-! ## Queues -/

/-- Every body of the queue is acknowledged in the end: it is known, or it can be recorded and its
branch succeeds or its own record makes it known. -/
def Mongo.drains (m : Mongo) : Db → List Body → Bool
  | _, [] => true
  | db, b :: bs =>
    if m.known db.processed_events b.value then m.drains db bs
    else
      match m.record? b.value with
      | none => false
      | some doc =>
        match m.project b.value db with
        | some db' => m.drains { db' with processed_events := db.processed_events ++ [doc] } bs
        | none =>
          m.known [doc] b.value &&
            m.drains { db with processed_events := db.processed_events ++ [doc] } bs

/-- A new record makes known what it makes known alone. -/
theorem known_append (m : Mongo) (recorded : List Doc) (doc : Doc) (event : Value) :
    m.known (recorded ++ [doc]) event = (m.known recorded event || m.known [doc] event) := by
  unfold Mongo.known
  cases envelope? event with
  | none => rfl
  | some e =>
    show (_ && _) = ((_ && _) || (_ && _))
    rw [List.any_append, Bool.and_or_distrib_left]

/-- A record leaves the branch of an event what it was: it is about the views. -/
theorem project_record (m : Mongo) (event : Value) (db : Db) (docs : List Doc) :
    m.project event { db with processed_events := docs } =
      (m.project event db).map fun db => { db with processed_events := docs } := by
  unfold Mongo.project
  cases envelope? event with
  | none => rfl
  | some e =>
    dsimp only
    cases hb : branch? e.event_type e.payload with
    | none => rfl
    | some c =>
      cases c with
      | none => rfl
      | some c =>
        obtain ⟨coll, filter, update, upsert, rfl, hcoll⟩ := branch_update hb
        exact effect_record hcoll docs db

/-- The queue is empty in the end. -/
def Mongo.Empties (m : Mongo) (x : Db × List Body) : Prop := ∃ n, (m.deliverHead^[n] x).2 = []

/-- A queue that is not empty is delivered from. -/
theorem empties_cons : m.Empties (db, b :: bs) ↔ m.Empties (m.deliverHead (db, b :: bs)) := by
  constructor
  · rintro ⟨n, hn⟩
    cases n with
    | zero => cases hn
    | succ n => exact ⟨n, hn⟩
  · rintro ⟨n, hn⟩
    exact ⟨n + 1, hn⟩

/-- What keeps the queue from being empty, and is kept by a delivery, keeps it so for ever. -/
theorem not_empties {P : Db × List Body → Prop} (hstep : ∀ x, P x → P (m.deliverHead x))
    (hne : ∀ x, P x → x.2 ≠ []) {x : Db × List Body} (hx : P x) : ¬ m.Empties x := by
  rintro ⟨n, hn⟩
  exact hne _ (Function.Iterate.rec P hx hstep n) hn

/-- A delivery of the head, where the callback is known to do this. -/
theorem deliverHead_acked {db' : Db} (hd : m.deliver b db = ⟨db', .acked⟩) :
    m.deliverHead (db, b :: bs) = (db', bs) := by
  simp only [Mongo.deliverHead, hd]

theorem deliverHead_ready {db' : Db} (hd : m.deliver b db = ⟨db', .ready⟩) :
    m.deliverHead (db, b :: bs) = (db', b :: bs) := by
  simp only [Mongo.deliverHead, hd]

/-- A body that is not known and cannot be recorded stays at the head. -/
theorem not_empties_of_rejected (hnew : m.known db.processed_events b.value = false)
    (hrecord : m.record? b.value = none) : ¬ m.Empties (db, b :: bs) := by
  apply not_empties (P := fun x => x = (db, b :: bs))
  · rintro x rfl
    have hd := deliver_result m b db
    generalize hr : m.deliver b db = r at hd
    cases hd with
    | duplicate hknown => exact absurd hknown (by simp [hnew])
    | rejected _ _ => exact deliverHead_ready hr
    | halfway _ hsome _ => exact absurd hsome (by simp [hrecord])
    | processed _ hsome _ => exact absurd hsome (by simp [hrecord])
  · rintro x rfl
    exact List.cons_ne_nil b bs
  · rfl

/-- A body that is recorded, rejected, and not known by its record is recorded for ever: its branch
does to the views what it did, which is nothing. -/
theorem not_empties_of_unrecognized {doc : Doc}
    (hnew : m.known db.processed_events b.value = false) (hrecord : m.record? b.value = some doc)
    (hbranch : m.project b.value db = none) (hself : m.known [doc] b.value = false) :
    ¬ m.Empties (db, b :: bs) := by
  apply not_empties (P := fun x => m.known x.1.processed_events b.value = false ∧
    m.project b.value x.1 = none ∧ x.2 = b :: bs)
  · rintro ⟨db, queue⟩ ⟨hk, hnone, hqueue⟩
    have hqueue' : queue = b :: bs := hqueue
    rw [hqueue']
    have hd := deliver_result m b db
    generalize hr : m.deliver b db = r at hd
    cases hd with
    | duplicate hknown => exact absurd hknown (by simp [hk])
    | rejected _ hno => exact absurd hno (by simp [hrecord])
    -- recorded and nacked: the record is not found by its own id, so nothing has changed for it
    | halfway _ hsome _ =>
      rw [deliverHead_ready hr]
      rw [hrecord, Option.some.injEq] at hsome
      refine ⟨?_, ?_, rfl⟩
      · show m.known (db.processed_events ++ [_]) b.value = false
        rw [known_append, ← hsome, hself, Bool.or_false]
        exact hk
      · rw [project_record, hnone, Option.map_none]
    | processed _ _ hsome =>
      rw [show m.project b.value db = none from hnone] at hsome
      cases hsome
  · rintro ⟨db, queue⟩ ⟨-, -, hqueue⟩
    rw [hqueue]
    exact List.cons_ne_nil b bs
  · exact ⟨hnew, hbranch, rfl⟩

/-- **Queues.** From any store, the deliveries empty a queue just if every body in it is known
when its turn comes, or can be recorded and then processed or recognized. -/
theorem queue_drains_iff (m : Mongo) (db : Db) (queue : List Body) :
    (∃ n, (m.deliverHead^[n] (db, queue)).2 = []) ↔
      m.drains db queue = true := by
  show m.Empties (db, queue) ↔ _
  induction queue generalizing db with
  | nil => exact ⟨fun _ => rfl, fun _ => ⟨0, rfl⟩⟩
  | cons b bs ih =>
    have hd := deliver_result m b db
    generalize hr : m.deliver b db = r at hd
    unfold Mongo.drains
    cases hd with
    | duplicate hknown =>
      rw [if_pos hknown, empties_cons, deliverHead_acked hr, ih]
    | rejected hnew hrecord =>
      rw [if_neg (by simp [hnew]), hrecord]
      exact iff_of_false (not_empties_of_rejected hnew hrecord) Bool.false_ne_true
    | @processed hnew doc hrecord db' hbranch =>
      rw [if_neg (by simp [hnew]), hrecord, empties_cons, deliverHead_acked hr, ih]
      dsimp only
      rw [hbranch]
    | @halfway hnew doc hrecord hbranch =>
      rw [if_neg (by simp [hnew]), hrecord]
      dsimp only
      rw [hbranch]
      cases hself : m.known [doc] b.value with
      | false =>
        exact iff_of_false (not_empties_of_unrecognized hnew hrecord hbranch hself) Bool.false_ne_true
      | true =>
        -- it is delivered again, and its record makes it a duplicate
        have hknown : m.known (db.processed_events ++ [doc]) b.value = true := by
          rw [known_append, hself, Bool.or_true]
        have hd' := deliver_result m b { db with processed_events := db.processed_events ++ [doc] }
        generalize hr' : m.deliver b _ = r' at hd'
        cases hd' with
        | duplicate _ =>
          rw [empties_cons, deliverHead_ready hr, empties_cons, deliverHead_acked hr', ih,
            Bool.true_and]
        | rejected hnew' _ => exact absurd hknown (by simp [hnew'])
        | halfway hnew' _ _ => exact absurd hknown (by simp [hnew'])
        | processed hnew' _ _ => exact absurd hknown (by simp [hnew'])

/-- A body that is no JSON blocks the post behind it. -/
theorem invalid_body_blocks :
    ¬ ∃ n, (Mongo.standard.deliverHead^[n] (Db.empty, [.invalid, postCreated "e-1" "u-1"])).2 =
      [] :=
  not_empties_of_rejected rfl rfl

end SocialNetwork.EventService

import SocialNetwork.EventService.Consumers

/-!
# What the consumer makes of any JSON value

The protocol of `Events.lean` is for events whose ids are scalars. Here an event is any JSON
value, and MongoDB is whatever answers every call that its driver can encode: it finds the
documents it takes for matches, and makes of a collection what it will with an `update_one`, unless
it refuses the update as a write error.

`process_event_result` says which of four things `process_event` does to an event. Between the
third (`halfway`, the event is recorded and an exception follows) and the others lies the
difference that the theorems on rejected events are about.
-/

namespace SocialNetwork.EventService

open DocStore

/-! ## MongoDB without failures -/

/-- What the consumer leaves to MongoDB and its driver: which calls can be encoded and sent, which
documents match a query, and what an `update_one` makes of a collection, where MongoDB takes it. -/
structure Mongo where
  encodes : Call → Bool
  holds : Filter → Doc → Bool
  update : Filter → Update → Bool → List Doc → Option (List Doc)

/-- The store, and what became of the delivery. -/
structure Handling where
  db : Db
  settled : Status

/-- What an `update_one` makes of the store; `none` where it cannot be encoded, or MongoDB refuses
it (a `$inc` of a field that is no number, say). -/
def Mongo.effect (m : Mongo) (db : Db) : Call → Option Db
  | .update_one coll filter update upsert =>
    if m.encodes (.update_one coll filter update upsert) then
      (m.update filter update upsert (db.coll coll)).map fun docs => db.setColl docs coll
    else none
  | _ => none

/-- Every call that can be encoded is answered, by a write error where MongoDB refuses it. -/
def Mongo.call (m : Mongo) : (c : Call) → Handling → Handling × Except PyError c.Answer
  | .find_one coll filter, h =>
    if m.encodes (.find_one coll filter) then
      (h, .ok ((h.db.coll coll).find? (m.holds filter)))
    else (h, .error .mongoError)
  | .insert_one coll doc, h =>
    if m.encodes (.insert_one coll doc) then
      ({ h with db := h.db.setColl (insertOne doc (h.db.coll coll)) coll }, .ok ())
    else (h, .error .mongoError)
  | .update_one coll filter update upsert, h =>
    match m.effect h.db (.update_one coll filter update upsert) with
    | some db => ({ h with db := db }, .ok ())
    | none => (h, .error .mongoError)
  | .basic_ack, h => ({ h with settled := .acked }, .ok ())
  | .basic_nack requeue, h =>
    ({ h with settled := if requeue then .ready else .discarded }, .ok ())

/-- The store of `Collection.lean`, which encodes everything. -/
def Mongo.standard : Mongo where
  encodes _ := true
  holds := Filter.holds
  update filter update upsert docs := (updateOne filter update upsert docs).map Prod.snd

section

variable {m : Mongo} {coll : Coll} {filter : Filter} {update : Update} {upsert : Bool} {doc : Doc}

/-- A query that can be sent is answered; one that cannot ends the program. -/
theorem eval_find_one_bind {α : Type} (f : Option Doc → Py α) (h : Handling) :
    (find_one coll filter >>= f).eval m.call h =
      if m.encodes (.find_one coll filter) then
        (f ((h.db.coll coll).find? (m.holds filter))).eval m.call h
      else (h, .error .mongoError) := by
  split_ifs with he
  · exact Prog.eval_perform_bind (if_pos he)
  · exact Prog.eval_perform_bind_error (if_neg he)

/-- A document that can be sent is added. -/
theorem eval_insert_one_bind {α : Type} (f : Unit → Py α) (h : Handling) :
    (insert_one coll doc >>= f).eval m.call h =
      if m.encodes (.insert_one coll doc) then
        (f ()).eval m.call { h with db := h.db.setColl (insertOne doc (h.db.coll coll)) coll }
      else (h, .error .mongoError) := by
  split_ifs with he
  · exact Prog.eval_perform_bind (if_pos he)
  · exact Prog.eval_perform_bind_error (if_neg he)

/-- An update that is taken has its effect. -/
theorem eval_update_one (h : Handling) :
    (update_one coll filter update upsert).eval m.call h =
      match m.effect h.db (.update_one coll filter update upsert) with
      | some db => ({ h with db := db }, .ok ())
      | none => (h, .error .mongoError) :=
  Prog.eval_perform _ h

/-- An update of a view does the same before and after a record is added. -/
theorem effect_record (hcoll : coll ≠ .processed_events) (docs : List Doc) (db : Db) :
    m.effect { db with processed_events := docs } (.update_one coll filter update upsert) =
      (m.effect db (.update_one coll filter update upsert)).map fun db =>
        { db with processed_events := docs } := by
  simp only [Mongo.effect]
  split_ifs
  · cases coll with
    | processed_events => exact absurd rfl hcoll
    | user_activity_view =>
      rw [Option.map_map]
      rfl
    | post_activity_view =>
      rw [Option.map_map]
      rfl
  · rfl

end

/-! ## What an event has -/

/-- What `process_event` reads before its first call. -/
structure Envelope where
  event_id : Value
  event_type : Value
  payload : Value

def envelope? (event : Value) : Option Envelope := do
  let event_id ← item? event "event_id"
  let event_type ← item? event "event_type"
  let payload ← item? event "payload"
  pure ⟨event_id, event_type, payload⟩

/-- The document that `process_event` records for an event with all five fields. -/
def document? (event : Value) : Option Doc := do
  let e ← envelope? event
  let occurred_at ← item? event "occurred_at"
  let producer ← item? event "producer"
  pure [("event_id", e.event_id), ("event_type", e.event_type), ("occurred_at", occurred_at),
    ("producer", producer), ("payload", e.payload)]

/-- The `update_one` of the event's branch, for a payload that has what the branch reads; an
event of another type has none. -/
def branch? (event_type payload : Value) : Option (Option Call) :=
  if event_type = .str "UserCreated" then do
    let user_id ← item? payload "user_id"
    let login ← item? payload "login"
    let email ← item? payload "email"
    pure (some (.update_one .user_activity_view (.field "user_id" user_id)
      { set := [("user_id", user_id), ("login", login), ("email", email)],
        setOnInsert := [("posts_count", .int 0), ("messages_sent", .int 0),
          ("likes_received", .int 0), ("comments_count", .int 0)] } true))
  else if event_type = .str "PostCreated" then
    (item? payload "author_id").map fun author_id =>
      some (.update_one .user_activity_view (.field "user_id" author_id)
        { inc := [("posts_count", 1)] } true)
  else if event_type = .str "MessageSent" then
    (item? payload "from_user_id").map fun from_user_id =>
      some (.update_one .user_activity_view (.field "user_id" from_user_id)
        { inc := [("messages_sent", 1)] } true)
  else if event_type = .str "PostLiked" then
    (item? payload "post_id").map fun post_id =>
      some (.update_one .post_activity_view (.field "post_id" post_id)
        { set := [("post_id", post_id)], inc := [("likes_count", 1)] } true)
  else if event_type = .str "CommentAdded" then
    (item? payload "post_id").map fun post_id =>
      some (.update_one .post_activity_view (.field "post_id" post_id)
        { set := [("post_id", post_id)], inc := [("comments_count", 1)] } true)
  else some none

/-- A branch updates a view. -/
theorem branch_update {event_type payload : Value} {c : Call}
    (h : branch? event_type payload = some (some c)) :
    ∃ coll filter update upsert, c = .update_one coll filter update upsert ∧
      coll ≠ .processed_events := by
  unfold branch? at h
  split_ifs at h
  · simp only [Option.bind_eq_bind, Option.bind_eq_some_iff, Option.pure_def, Option.some.injEq] at h
    obtain ⟨_, _, _, _, _, _, rfl⟩ := h
    exact ⟨_, _, _, _, rfl, by decide⟩
  -- the other four read one field
  iterate 4
    · simp only [Option.map_eq_some_iff, Option.some.injEq] at h
      obtain ⟨_, _, rfl⟩ := h
      exact ⟨_, _, _, _, rfl, by decide⟩
  · cases h

namespace Mongo

/-- The event is among the recorded ones. -/
def known (m : Mongo) (recorded : List Doc) (event : Value) : Bool :=
  match envelope? event with
  | none => false
  | some e =>
    m.encodes (.find_one .processed_events (.field "event_id" e.event_id)) &&
      recorded.any (m.holds (.field "event_id" e.event_id))

/-- The document that a new event is recorded by. -/
def record? (m : Mongo) (event : Value) : Option Doc := do
  let e ← envelope? event
  let doc ← document? event
  if m.encodes (.find_one .processed_events (.field "event_id" e.event_id)) &&
      m.encodes (.insert_one .processed_events doc) then
    some doc
  else none

/-- What the event's branch makes of the store: `none` when the payload lacks what the branch
reads, or its `update_one` is not taken. -/
def project (m : Mongo) (event : Value) (db : Db) : Option Db :=
  match envelope? event with
  | none => none
  | some e =>
    match branch? e.event_type e.payload with
    | none => none
    | some none => some db
    | some (some c) => m.effect db c

end Mongo

/-! ## What `process_event` does -/

theorem subscript_of_some {v w : Value} {key : String} (h : item? v key = some w) :
    subscript v key = .ret w := by
  unfold item? at h
  unfold subscript
  split at h
  · rw [h]
  · cases h

theorem subscript_of_none {v : Value} {key : String} (h : item? v key = none) :
    ∃ e, subscript v key = .raise e := by
  cases v with
  | obj fs =>
    have hfs : fs.lookup key = none := h
    simp only [subscript, hfs]
    exact ⟨_, rfl⟩
  | _ => exact ⟨_, rfl⟩

/-- The four things that can happen to an event. -/
inductive Result (m : Mongo) (event : Value) (h : Handling) :
    Handling × Except PyError Unit → Prop
  | duplicate (hknown : m.known h.db.processed_events event = true) : Result m event h (h, .ok ())
  | rejected (hnew : m.known h.db.processed_events event = false) (hrecord : m.record? event = none)
    (e : PyError) : Result m event h (h, .error e)
  | halfway (hnew : m.known h.db.processed_events event = false) {doc : Doc}
    (hrecord : m.record? event = some doc) (hbranch : m.project event h.db = none) (e : PyError) :
    Result m event h
      ({ h with db := { h.db with processed_events := h.db.processed_events ++ [doc] } }, .error e)
  | processed (hnew : m.known h.db.processed_events event = false) {doc : Doc}
    (hrecord : m.record? event = some doc) {db : Db} (hbranch : m.project event h.db = some db) :
    Result m event h
      ({ h with db := { db with processed_events := h.db.processed_events ++ [doc] } }, .ok ())

section

variable {m : Mongo} {event : Value} {h : Handling}

/-- What follows the record of an event with a field of its payload missing. -/
theorem result_missing (hnew : m.known h.db.processed_events event = false) {doc : Doc}
    (hrecord : m.record? event = some doc) {e : Envelope} (he : envelope? event = some e)
    (hbranch : branch? e.event_type e.payload = none) (err : PyError) :
    Result m event h
      ({ h with db := { h.db with processed_events := h.db.processed_events ++ [doc] } },
        .error err) := by
  have hc : m.project event h.db = none := by
    unfold Mongo.project
    rw [he]
    simp only [hbranch]
  exact .halfway hnew hrecord hc err

/-- What the `update_one` of an event that has been recorded does. -/
theorem result_update (hnew : m.known h.db.processed_events event = false) {doc : Doc}
    (hrecord : m.record? event = some doc) {e : Envelope} (he : envelope? event = some e)
    {coll : Coll} (hcoll : coll ≠ .processed_events) {filter : Filter} {update : Update}
    {upsert : Bool}
    (hbranch : branch? e.event_type e.payload =
      some (some (.update_one coll filter update upsert))) :
    Result m event h ((update_one coll filter update upsert).eval m.call
      { h with db := { h.db with processed_events := h.db.processed_events ++ [doc] } }) := by
  have hc : m.project event h.db = m.effect h.db (.update_one coll filter update upsert) := by
    unfold Mongo.project
    rw [he]
    simp only [hbranch]
  rw [eval_update_one]
  dsimp only
  rw [effect_record hcoll]
  cases hup : m.effect h.db (.update_one coll filter update upsert) with
  | none => exact .halfway hnew hrecord (hc.trans hup) _
  | some db => exact .processed hnew hrecord (hc.trans hup)

end

/-- **What an event is to the consumer.** `process_event` does one of four things to any JSON
value. -/
theorem process_event_result (m : Mongo) (event : Value) (h : Handling) :
    Result m event h ((process_event event).eval m.call h) := by
  unfold process_event
  -- the envelope is read before the first call: without it nothing is written
  have hreject : envelope? event = none → ∀ err, Result m event h (h, .error err) := by
    intro he err
    refine .rejected ?_ ?_ err
    · unfold Mongo.known
      rw [he]
    · unfold Mongo.record?
      rw [he]
      rfl
  cases hid : item? event "event_id" with
  | none =>
    obtain ⟨err, herr⟩ := subscript_of_none hid
    rw [herr]
    exact hreject (by simp [envelope?, hid]) err
  | some event_id =>
  cases hty : item? event "event_type" with
  | none =>
    obtain ⟨err, herr⟩ := subscript_of_none hty
    rw [subscript_of_some hid, herr]
    exact hreject (by simp [envelope?, hid, hty]) err
  | some event_type =>
  cases hpl : item? event "payload" with
  | none =>
    obtain ⟨err, herr⟩ := subscript_of_none hpl
    rw [subscript_of_some hid, subscript_of_some hty, herr]
    exact hreject (by simp [envelope?, hid, hty, hpl]) err
  | some payload =>
  have he : envelope? event = some ⟨event_id, event_type, payload⟩ := by
    simp [envelope?, hid, hty, hpl]
  rw [subscript_of_some hid, subscript_of_some hty, subscript_of_some hpl]
  simp only [Prog.ret_bind]
  rw [eval_find_one_bind]
  by_cases hsend : m.encodes (.find_one .processed_events (.field "event_id" event_id)) = true
  swap
  · -- the id itself cannot be sent
    rw [if_neg hsend]
    rw [Bool.not_eq_true] at hsend
    refine .rejected ?_ ?_ _
    · simp [Mongo.known, he, hsend]
    · simp [Mongo.record?, he, hsend]
  rw [if_pos hsend]
  have hknown : ((h.db.coll .processed_events).find?
      (m.holds (.field "event_id" event_id))).isSome = m.known h.db.processed_events event := by
    unfold Mongo.known
    rw [he]
    show _ = (m.encodes _ && _)
    rw [hsend, Bool.true_and, Bool.eq_iff_iff, List.find?_isSome, List.any_eq_true]
    rfl
  rw [hknown]
  by_cases hk : m.known h.db.processed_events event = true
  · rw [if_pos hk]
    exact .duplicate hk
  rw [if_neg hk]
  rw [Bool.not_eq_true] at hk
  -- the record is complete and can be sent, or nothing is written
  cases hat : item? event "occurred_at" with
  | none =>
    obtain ⟨err, herr⟩ := subscript_of_none hat
    rw [herr]
    exact .rejected hk (by simp [Mongo.record?, document?, he, hat]) err
  | some occurred_at =>
  cases hpr : item? event "producer" with
  | none =>
    obtain ⟨err, herr⟩ := subscript_of_none hpr
    rw [subscript_of_some hat, herr]
    exact .rejected hk (by simp [Mongo.record?, document?, he, hat, hpr]) err
  | some producer =>
  have hdoc : document? event = some [("event_id", event_id), ("event_type", event_type),
      ("occurred_at", occurred_at), ("producer", producer), ("payload", payload)] := by
    simp [document?, he, hat, hpr]
  rw [subscript_of_some hat, subscript_of_some hpr]
  simp only [Prog.ret_bind]
  rw [eval_insert_one_bind]
  by_cases hins : m.encodes (.insert_one .processed_events [("event_id", event_id),
      ("event_type", event_type), ("occurred_at", occurred_at), ("producer", producer),
      ("payload", payload)]) = true
  swap
  · rw [if_neg hins]
    rw [Bool.not_eq_true] at hins
    exact .rejected hk (by simp [Mongo.record?, he, hdoc, hins]) _
  rw [if_pos hins]
  have hrecord : m.record? event = some [("event_id", event_id), ("event_type", event_type),
      ("occurred_at", occurred_at), ("producer", producer), ("payload", payload)] := by
    simp [Mongo.record?, he, hdoc, hsend, hins]
  have hmissing : branch? event_type payload = none → ∀ err, Result m event h (_, .error err) :=
    fun hb err => result_missing hk hrecord he hb err
  have hupdate : ∀ {coll filter update upsert}, coll ≠ .processed_events →
      branch? event_type payload = some (some (.update_one coll filter update upsert)) → _ :=
    fun hcoll hb => result_update hk hrecord he hcoll hb
  -- one case per branch of the source: it reads its fields and makes its `update_one`
  split_ifs with h₁ h₂ h₃ h₄ h₅
  · subst h₁
    cases huser : item? payload "user_id" with
    | none =>
      obtain ⟨err, herr⟩ := subscript_of_none huser
      rw [herr]
      exact hmissing (by simp [branch?, huser]) err
    | some user_id =>
    cases hlogin : item? payload "login" with
    | none =>
      obtain ⟨err, herr⟩ := subscript_of_none hlogin
      rw [subscript_of_some huser, herr]
      exact hmissing (by simp [branch?, huser, hlogin]) err
    | some login =>
    cases hemail : item? payload "email" with
    | none =>
      obtain ⟨err, herr⟩ := subscript_of_none hemail
      rw [subscript_of_some huser, subscript_of_some hlogin, herr]
      exact hmissing (by simp [branch?, huser, hlogin, hemail]) err
    | some email =>
      rw [subscript_of_some huser, subscript_of_some hlogin, subscript_of_some hemail]
      exact hupdate (by decide) (by simp [branch?, huser, hlogin, hemail])
  · subst h₂
    cases hkey : item? payload "author_id" with
    | none =>
      obtain ⟨err, herr⟩ := subscript_of_none hkey
      rw [herr]
      exact hmissing (by simp [branch?, hkey]) err
    | some author_id =>
      rw [subscript_of_some hkey]
      exact hupdate (by decide) (by simp [branch?, hkey])
  · subst h₃
    cases hkey : item? payload "from_user_id" with
    | none =>
      obtain ⟨err, herr⟩ := subscript_of_none hkey
      rw [herr]
      exact hmissing (by simp [branch?, hkey]) err
    | some from_user_id =>
      rw [subscript_of_some hkey]
      exact hupdate (by decide) (by simp [branch?, hkey])
  · subst h₄
    cases hkey : item? payload "post_id" with
    | none =>
      obtain ⟨err, herr⟩ := subscript_of_none hkey
      rw [herr]
      exact hmissing (by simp [branch?, hkey]) err
    | some post_id =>
      rw [subscript_of_some hkey]
      exact hupdate (by decide) (by simp [branch?, hkey])
  · subst h₅
    cases hkey : item? payload "post_id" with
    | none =>
      obtain ⟨err, herr⟩ := subscript_of_none hkey
      rw [herr]
      exact hmissing (by simp [branch?, hkey]) err
    | some post_id =>
      rw [subscript_of_some hkey]
      exact hupdate (by decide) (by simp [branch?, hkey])
  · -- no branch: the event is recorded, and that is all
    have hb : m.project event h.db = some h.db := by
      simp [Mongo.project, he, branch?, h₁, h₂, h₃, h₄, h₅]
    exact .processed hk hrecord hb

end SocialNetwork.EventService

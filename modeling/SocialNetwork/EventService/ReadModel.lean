import SocialNetwork.EventService.Events
import Mathlib.Tactic.SplitIfs

/-!
# The read model, abstractly

`ReadModel` is what the two views are for: under each key, the fields of the one document of
that key. `ReadModel.step` is the effect of an event on it. `Views` is the invariant of the
stored views (one document per key, counters are integers), and `Views.project` says that the
`update_one` of an event keeps it and refines `ReadModel.step`.
-/

namespace SocialNetwork.EventService

open DocStore

/-! ## The abstract read model -/

/-- The fields of a document. -/
abbrev Fields := String → Option Value

/-- The document of each key of each view. -/
abbrev ReadModel := Coll → Key → Option Fields

namespace EventKind

/-- What an event makes of the document of its key. -/
def put (k : EventKind) (F : Fields) : Fields := fun f =>
  match k with
  | UserCreated u login email =>
    if f = "email" then some email
    else if f = "login" then some login
    else if f = "user_id" then some u.val
    else F f
  | PostCreated _ => if f = "posts_count" then bump 1 (F f) else F f
  | MessageSent _ => if f = "messages_sent" then bump 1 (F f) else F f
  | PostLiked p =>
    if f = "likes_count" then bump 1 (F f)
    else if f = "post_id" then some p.val
    else F f
  | CommentAdded p =>
    if f = "comments_count" then bump 1 (F f)
    else if f = "post_id" then some p.val
    else F f

/-- The fields of a new document before the event is put into it. -/
def init (k : EventKind) : Fields := fun f =>
  match k with
  | UserCreated u _ _ =>
    if f = "comments_count" ∨ f = "likes_received" ∨ f = "messages_sent" ∨ f = "posts_count" then
      some (.int 0)
    else if f = "user_id" then some u.val
    else none
  | PostCreated u | MessageSent u => if f = "user_id" then some u.val else none
  | PostLiked p | CommentAdded p => if f = "post_id" then some p.val else none

end EventKind

namespace ReadModel

def empty : ReadModel := fun _ _ => none

/-- The effect of an event: only the document of its key changes. -/
def step (k : EventKind) (m : ReadModel) : ReadModel := fun v j =>
  if v = k.view ∧ j = k.key then some (k.put ((m v j).getD k.init)) else m v j

end ReadModel

/-! ## Counters -/

/-- The counters that events increment. -/
inductive Counter
  | posts_count
  | messages_sent
  | likes_count
  | comments_count
deriving DecidableEq

namespace Counter

def view : Counter → Coll
  | posts_count | messages_sent => .user_activity_view
  | likes_count | comments_count => .post_activity_view

def field : Counter → String
  | posts_count => "posts_count"
  | messages_sent => "messages_sent"
  | likes_count => "likes_count"
  | comments_count => "comments_count"

/-- The events a counter of a user or a post counts. -/
def counts (c : Counter) (key : Key) (k : EventKind) : Bool :=
  match c, k with
  | posts_count, .PostCreated u => u = key
  | messages_sent, .MessageSent u => u = key
  | likes_count, .PostLiked p => p = key
  | comments_count, .CommentAdded p => p = key
  | _, _ => false

/-- An event counted for a key updates the document of that key. -/
theorem counts_target {c : Counter} {key : Key} {k : EventKind} (h : c.counts key k = true) :
    c.view = k.view ∧ key = k.key := by
  cases c <;> cases k <;> simp_all [counts, view, EventKind.view, EventKind.key]

end Counter

/-- The integer in a field, zero where there is none. -/
def countOf : Option Value → Int
  | some (.int n) => n
  | _ => 0

theorem countOf_bump {w : Option Value} (h : IsCount w) : countOf (bump 1 w) = countOf w + 1 := by
  obtain rfl | ⟨n, rfl⟩ := h <;> rfl

namespace ReadModel

/-- The value of a counter; an absent document or field counts as zero. -/
def counter (m : ReadModel) (c : Counter) (key : Key) : Int :=
  countOf ((m c.view key).bind (· c.field))

/-- Every counter field of the views is absent or an integer. -/
def Counting (m : ReadModel) : Prop :=
  ∀ v key F, v ≠ .processed_events → m v key = some F → ∀ c : Counter, IsCount (F c.field)

end ReadModel

namespace EventKind

/-- The views are not the log of processed events. -/
theorem view_ne (k : EventKind) : k.view ≠ .processed_events := by
  cases k <;> exact fun h => by cases h

/-- On the counters of its view, an event bumps the one it is counted by. -/
theorem put_counter (k : EventKind) (F : Fields) (c : Counter) (h : c.view = k.view) :
    k.put F c.field = if c.counts k.key k then bump 1 (F c.field) else F c.field := by
  cases c <;> cases k <;>
    simp_all [Counter.view, EventKind.view, put, Counter.field, Counter.counts, key]

/-- An event leaves counts in the counters. -/
theorem isCount_put (k : EventKind) {F : Fields} (h : ∀ c : Counter, IsCount (F c.field))
    (c : Counter) : IsCount (k.put F c.field) := by
  cases c <;> cases k <;> simp [put, Counter.field] <;>
    first
    | exact (h .posts_count).bump 1
    | exact (h .messages_sent).bump 1
    | exact (h .likes_count).bump 1
    | exact (h .comments_count).bump 1
    | exact h .posts_count
    | exact h .messages_sent
    | exact h .likes_count
    | exact h .comments_count

/-- In a new document a counter is absent or zero. -/
theorem init_counter (k : EventKind) (c : Counter) :
    k.init c.field = none ∨ k.init c.field = some (.int 0) := by
  cases c <;> cases k <;> simp [init, Counter.field]

theorem isCount_init (k : EventKind) (c : Counter) : IsCount (k.init c.field) := by
  obtain h | h := k.init_counter c
  · exact .inl h
  · exact .inr ⟨0, h⟩

/-- A new document has counted nothing. -/
theorem countOf_init (k : EventKind) (c : Counter) : countOf (k.init c.field) = 0 := by
  obtain h | h := k.init_counter c <;> rw [h] <;> rfl

end EventKind

namespace ReadModel

variable {m : ReadModel} {k : EventKind}

/-- The document of the event. -/
theorem step_self (m : ReadModel) (k : EventKind) :
    step k m k.view k.key = some (k.put ((m k.view k.key).getD k.init)) := if_pos ⟨rfl, rfl⟩

theorem step_other {v : Coll} {j : Key} (h : ¬ (v = k.view ∧ j = k.key)) :
    step k m v j = m v j := if_neg h

/-- The counters of a document, which may be new. -/
theorem Counting.getD (h : Counting m) (k : EventKind) {v : Coll} (hv : v ≠ .processed_events)
    (key : Key) (c : Counter) : IsCount ((m v key).getD k.init c.field) := by
  cases hm : m v key with
  | none => exact k.isCount_init c
  | some F => exact h v key F hv hm c

/-- An event adds one to the counters that count it and leaves the others alone. -/
theorem counter_step (h : Counting m) (k : EventKind) (c : Counter) (key : Key) :
    counter (step k m) c key = counter m c key + if c.counts key k then 1 else 0 := by
  by_cases ht : c.view = k.view ∧ key = k.key
  · obtain ⟨hv, rfl⟩ := ht
    have hself : step k m c.view k.key = some (k.put ((m c.view k.key).getD k.init)) := by
      rw [hv, step_self]
    have hold : countOf ((m c.view k.key).getD k.init c.field) = counter m c k.key := by
      unfold counter
      cases m c.view k.key with
      | none => exact k.countOf_init c
      | some F => rfl
    rw [counter, hself, Option.bind_some, k.put_counter _ c hv]
    split_ifs with hc
    · rw [countOf_bump (h.getD k (hv ▸ k.view_ne) k.key c), hold]
    · rw [hold, Int.add_zero]
  · have hc : ¬ c.counts key k = true := fun hc => ht (Counter.counts_target hc)
    rw [counter, step_other ht, if_neg hc, Int.add_zero, counter]

end ReadModel

/-! ## The stored views refine it -/

/-- The read model that a database stores. -/
def readModel (db : Db) : ReadModel := fun v key =>
  (byKey v.keyField (db.coll v) key).map Doc.get

/-- One document per key, and every counter is absent or an integer. -/
structure Views (db : Db) : Prop where
  keyed : ∀ v, v ≠ .processed_events → Keyed v.keyField (db.coll v)
  counting : ∀ v, v ≠ .processed_events → ∀ d ∈ db.coll v, ∀ c : Counter, IsCount (d.get c.field)

theorem views_empty : Views Db.empty where
  keyed v _ := by cases v <;> exact keyed_nil _
  counting v _ d hd := by cases v <;> cases hd

/-- Recording an event leaves the views as they are. -/
theorem Views.record {db : Db} (h : Views db) (d : Doc) :
    Views { db with processed_events := db.processed_events ++ [d] } where
  keyed v hv := by
    cases v with
    | processed_events => exact absurd rfl hv
    | user_activity_view => exact h.keyed _ hv
    | post_activity_view => exact h.keyed _ hv
  counting v hv := by
    cases v with
    | processed_events => exact absurd rfl hv
    | user_activity_view => exact h.counting _ hv
    | post_activity_view => exact h.counting _ hv

/-- The update of an event, on a document with counters. -/
theorem EventKind.apply_update (k : EventKind) {d : Doc}
    (h : ∀ c : Counter, IsCount (d.get c.field)) :
    ∃ d', k.update.apply d = some d' ∧ d'.get = k.put d.get := by
  cases k with
  | UserCreated u login email =>
    refine ⟨_, Update.apply_set _ _ d, funext fun f => ?_⟩
    simp only [Doc.setAll_cons, Doc.setAll_nil, Doc.get_set, put]
  | PostCreated u =>
    obtain ⟨d', hd', hget⟩ := incField_of_isCount (h .posts_count) 1
    refine ⟨d', (Update.apply_inc [] _ d).trans hd', funext fun f => ?_⟩
    rw [hget, put, Counter.field]
    split_ifs with hf <;> simp [hf]
  | MessageSent u =>
    obtain ⟨d', hd', hget⟩ := incField_of_isCount (h .messages_sent) 1
    refine ⟨d', (Update.apply_inc [] _ d).trans hd', funext fun f => ?_⟩
    rw [hget, put, Counter.field]
    split_ifs with hf <;> simp [hf]
  -- the two branches that set the key of the document besides counting
  | PostLiked p =>
    have hc : IsCount ((d.set "post_id" p.val).get "likes_count") := by
      rw [Doc.get_set_of_ne _ _ (by decide)]
      exact h .likes_count
    obtain ⟨d', hd', hget⟩ := incField_of_isCount hc 1
    refine ⟨d', (Update.apply_inc [("post_id", p.val)] _ d).trans hd', funext fun f => ?_⟩
    rw [hget, put]
    simp only [Doc.get_set]
    split_ifs with hf <;> simp_all
  | CommentAdded p =>
    have hc : IsCount ((d.set "post_id" p.val).get "comments_count") := by
      rw [Doc.get_set_of_ne _ _ (by decide)]
      exact h .comments_count
    obtain ⟨d', hd', hget⟩ := incField_of_isCount hc 1
    refine ⟨d', (Update.apply_inc [("post_id", p.val)] _ d).trans hd', funext fun f => ?_⟩
    rw [hget, put]
    simp only [Doc.get_set]
    split_ifs with hf <;> simp_all

/-- The document an event creates before its update is applied. -/
def EventKind.seeded (k : EventKind) : Doc :=
  Doc.setAll [(k.view.keyField, k.key.val)] k.update.setOnInsert

theorem EventKind.get_seeded (k : EventKind) : k.seeded.get = k.init := by
  funext f
  cases k with
  | UserCreated u login email =>
    simp only [seeded, update, view, Coll.keyField, key, Doc.setAll_cons, Doc.setAll_nil,
      Doc.get_set, Doc.get_cons, Doc.get_nil, init]
    split_ifs <;> simp_all
  | PostCreated u => simp [seeded, update, view, Coll.keyField, key, Doc.get_cons, init]
  | MessageSent u => simp [seeded, update, view, Coll.keyField, key, Doc.get_cons, init]
  | PostLiked p => simp [seeded, update, view, Coll.keyField, key, Doc.get_cons, init]
  | CommentAdded p => simp [seeded, update, view, Coll.keyField, key, Doc.get_cons, init]

/-- The document an event creates. -/
theorem EventKind.create_update (k : EventKind) :
    ∃ d', k.update.create [(k.view.keyField, k.key.val)] = some d' ∧ d'.get = k.put k.init := by
  obtain ⟨d', hd', hget⟩ := k.apply_update (d := k.seeded) fun c => by
    rw [k.get_seeded]
    exact k.isCount_init c
  exact ⟨d', hd', by rw [hget, k.get_seeded]⟩

/-- An event keeps, or sets, the key of its document. -/
theorem EventKind.put_key (k : EventKind) {F : Fields}
    (h : F k.view.keyField = some k.key.val) :
    k.put F k.view.keyField = some k.key.val := by
  cases k <;> simp_all [put, view, Coll.keyField, key]

/-- A new document has its key. -/
theorem EventKind.init_key (k : EventKind) : k.init k.view.keyField = some k.key.val := by
  cases k <;> simp [init, view, Coll.keyField, key]

/-- The update of an event keeps the key of its document. -/
theorem EventKind.keepsKey (k : EventKind) {c : List Doc}
    (hc : ∀ d ∈ c, ∀ c : Counter, IsCount (d.get c.field)) :
    KeepsKey k.view.keyField c k.update k.key where
  apply d hd hk := by
    obtain ⟨d', hd', hget⟩ := k.apply_update (hc d hd)
    exact ⟨d', hd', by rw [hget]; exact k.put_key hk⟩
  create := by
    obtain ⟨d', hd', hget⟩ := k.create_update
    exact ⟨d', hd', by rw [hget]; exact k.put_key k.init_key⟩

/-- After the update of an event, the counters of every document are still counts. -/
theorem EventKind.counting_upsert (k : EventKind) {c c' : List Doc} {n : Nat}
    (hk : Keyed k.view.keyField c) (hc : ∀ d ∈ c, ∀ c : Counter, IsCount (d.get c.field))
    (h : updateOne (.field k.view.keyField k.key.val) k.update true c = some (n, c')) :
    ∀ d ∈ c', ∀ c : Counter, IsCount (d.get c.field) := by
  intro x hx ctr
  rcases hk.mem_upsert h hx with hx | ⟨d, hd, -, ha⟩ | ha
  · exact hc x hx ctr
  · obtain ⟨d', hd', hget⟩ := k.apply_update (hc d hd)
    rw [ha, Option.some.injEq] at hd'
    rw [hd', hget]
    exact k.isCount_put (hc d hd) ctr
  · obtain ⟨d', hd', hget⟩ := k.create_update
    rw [ha, Option.some.injEq] at hd'
    rw [hd', hget]
    exact k.isCount_put k.isCount_init ctr

/-- The document of a key after the update of an event. -/
theorem EventKind.byKey_upsert (k : EventKind) {c c' : List Doc} {n : Nat}
    (hk : Keyed k.view.keyField c) (hc : ∀ d ∈ c, ∀ c : Counter, IsCount (d.get c.field))
    (h : updateOne (.field k.view.keyField k.key.val) k.update true c = some (n, c'))
    (j : Key) :
    (byKey k.view.keyField c' j).map Doc.get =
      if j = k.key then
        some (k.put (((byKey k.view.keyField c j).map Doc.get).getD k.init))
      else (byKey k.view.keyField c j).map Doc.get := by
  rw [hk.byKey_upsert (k.keepsKey hc) h]
  by_cases hj : j = k.key
  · subst hj
    rw [if_pos rfl, if_pos rfl]
    cases hb : byKey k.view.keyField c k.key with
    | none =>
      obtain ⟨d', hd', hget⟩ := k.create_update
      simp only [hd', Option.map_some, hget, Option.map_none, Option.getD_none]
    | some d =>
      obtain ⟨d', hd', hget⟩ := k.apply_update (hc d (List.mem_of_find?_eq_some hb))
      simp only [hd', Option.map_some, hget, Option.getD_some]
  · rw [if_neg hj, if_neg hj]

/-- The `update_one` of an event leaves `processed_events` alone. -/
theorem EventKind.processed_events_call (k : EventKind) (db : Db) :
    (Db.call k.call db).1.processed_events = db.processed_events := by
  simp only [EventKind.call, Db.call]
  split
  · cases k <;> rfl
  · rfl

/-- **Refinement.** The `update_one` of an event succeeds, keeps the views well formed, and
does to the read model what the event means. -/
theorem Views.project {db : Db} (h : Views db) (k : EventKind) :
    ∃ db', Db.call k.call db = (db', .ok ()) ∧ Views db' ∧
      db'.processed_events = db.processed_events ∧
      readModel db' = ReadModel.step k (readModel db) := by
  have hkeyed := h.keyed k.view k.view_ne
  have hcount := h.counting k.view k.view_ne
  obtain ⟨n, docs, hup⟩ := hkeyed.exists_upsert (k.keepsKey hcount)
  refine ⟨db.setColl docs k.view, ?_, ⟨fun v hv => ?_, fun v hv => ?_⟩, ?_, ?_⟩
  · simp only [EventKind.call, Db.call, hup]
  · rw [Db.coll_setColl]
    -- the other view is not touched
    by_cases he : v = k.view
    · rw [if_pos he, he]
      exact hkeyed.upsert (k.keepsKey hcount) hup
    · rw [if_neg he]
      exact h.keyed v hv
  · rw [Db.coll_setColl]
    by_cases he : v = k.view
    · rw [if_pos he]
      exact k.counting_upsert hkeyed hcount hup
    · rw [if_neg he]
      exact h.counting v hv
  · cases k <;> rfl
  · funext v j
    rw [readModel, Db.coll_setColl, ReadModel.step]
    by_cases he : v = k.view
    · subst he
      rw [if_pos rfl, k.byKey_upsert hkeyed hcount hup]
      simp only [true_and, readModel]
    · rw [if_neg he, if_neg fun hc => he hc.1, readModel]

/-- The counters of stored views are counts. -/
theorem Views.counting_readModel {db : Db} (h : Views db) : (readModel db).Counting := by
  intro v key F hv hF c
  obtain ⟨d, hd, rfl⟩ := Option.map_eq_some_iff.mp hF
  exact h.counting v hv d (List.mem_of_find?_eq_some hd) c

end SocialNetwork.EventService

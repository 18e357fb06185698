import SocialNetwork.EventService.Consumer

/-!
# What an event means, and the discipline of the consumer

`EventKind` is the meaning of an event for the read model: the one `update_one` of its branch.
`kind?` reads it off a JSON value. `monitor` is the protocol `callback` follows for one
delivery, and `callback_obeys` says that it does, for every body whose ids are scalars: an array
or an object given to `find_one` or `update_one` is a pattern, not an id. All invariants of the
consumer are derived from that theorem; none unfolds `process_event` again.
-/

namespace SocialNetwork.EventService

open DocStore

/-! ## Events -/

/-- The field that identifies a document of a collection. -/
def Coll.keyField : Coll → String
  | .processed_events => "event_id"
  | .user_activity_view => "user_id"
  | .post_activity_view => "post_id"

/-- The five events, with what their branch of `process_event` reads. -/
inductive EventKind
  | UserCreated (user_id : Key) (login email : Value)
  | PostCreated (author_id : Key)
  | MessageSent (from_user_id : Key)
  | PostLiked (post_id : Key)
  | CommentAdded (post_id : Key)
deriving DecidableEq

namespace EventKind

/-- The view the event's branch updates. -/
def view : EventKind → Coll
  | UserCreated .. | PostCreated _ | MessageSent _ => .user_activity_view
  | PostLiked _ | CommentAdded _ => .post_activity_view

/-- The user or the post the event is counted for. -/
def key : EventKind → Key
  | UserCreated u _ _ => u
  | PostCreated u => u
  | MessageSent u => u
  | PostLiked p => p
  | CommentAdded p => p

/-- The update of the event's branch. -/
def update : EventKind → Update
  | UserCreated u login email =>
    { set := [("user_id", u.val), ("login", login), ("email", email)],
      setOnInsert := [("posts_count", .int 0), ("messages_sent", .int 0),
        ("likes_received", .int 0), ("comments_count", .int 0)] }
  | PostCreated _ => { inc := [("posts_count", 1)] }
  | MessageSent _ => { inc := [("messages_sent", 1)] }
  | PostLiked p => { set := [("post_id", p.val)], inc := [("likes_count", 1)] }
  | CommentAdded p => { set := [("post_id", p.val)], inc := [("comments_count", 1)] }

/-- The `update_one` of the event's branch. -/
def call (k : EventKind) : Call :=
  .update_one k.view (.field k.view.keyField k.key.val) k.update true

end EventKind

/-- The string under a key, where there is one. -/
def str? (v : Value) (key : String) : Option String :=
  match item? v key with
  | some (.str s) => some s
  | _ => none

/-- The scalar under a key, where there is one. -/
def key? (v : Value) (key : String) : Option Key := (item? v key).bind Value.key?

/-- The fields of the payload that the branch of a type reads. The first one names the document;
a type without a branch has none. -/
def branchFields (event_type : String) : List String :=
  if event_type = "UserCreated" then ["user_id", "login", "email"]
  else if event_type = "PostCreated" then ["author_id"]
  else if event_type = "MessageSent" then ["from_user_id"]
  else if event_type = "PostLiked" then ["post_id"]
  else if event_type = "CommentAdded" then ["post_id"]
  else []

/-- The event of a type with its payload. -/
def kindOf (event_type : String) (payload : Value) : Option EventKind :=
  if event_type = "UserCreated" then
    match key? payload "user_id", item? payload "login", item? payload "email" with
    | some u, some login, some email => some (.UserCreated u login email)
    | _, _, _ => none
  else if event_type = "PostCreated" then (key? payload "author_id").map .PostCreated
  else if event_type = "MessageSent" then (key? payload "from_user_id").map .MessageSent
  else if event_type = "PostLiked" then (key? payload "post_id").map .PostLiked
  else if event_type = "CommentAdded" then (key? payload "post_id").map .CommentAdded
  else none

/-- The event a JSON value stands for: one of the five types with every field its branch reads, the
first of them a scalar. -/
def kind? (v : Value) : Option EventKind :=
  match str? v "event_type", item? v "payload" with
  | some event_type, some payload => kindOf event_type payload
  | _, _ => none

namespace Body

/-- The JSON value of a body, null when it has none. -/
def value : Body → Value
  | invalid => .null
  | json v => v

def event_id? (b : Body) : Option Key := key? b.value "event_id"

def kind? (b : Body) : Option EventKind := EventService.kind? b.value

end Body

/-- The ids that the consumer hands to `find_one` and `update_one` are scalars, where they are
there: the `event_id`, and the field by which the branch names its document. Everything else may be
missing or have any shape. -/
structure ScalarIds (b : Body) : Prop where
  event_id : ∀ w, item? b.value "event_id" = some w → w.scalar = true
  payload : ∀ event_type payload, item? b.value "event_type" = some (.str event_type) →
    item? b.value "payload" = some payload →
      ∀ key ∈ (branchFields event_type).head?, ∀ w, item? payload key = some w → w.scalar = true

/-- A well-formed event: valid JSON, one of the five event types, and every field that its
branch of `process_event` reads is present. -/
structure WellFormed (b : Body) : Prop where
  event_id : (item? b.value "event_id").isSome
  occurred_at : (item? b.value "occurred_at").isSome
  producer : (item? b.value "producer").isSome
  branch : ∃ event_type payload, item? b.value "event_type" = some (.str event_type) ∧
    item? b.value "payload" = some payload ∧ branchFields event_type ≠ [] ∧
      ∀ key ∈ branchFields event_type, (item? payload key).isSome

theorem key?_of_item {v : Value} {key : String} {w : Key} (h : item? v key = some w.val) :
    key? v key = some w := by
  rw [key?, h, Option.bind_some]
  exact Value.key?_eq_some.mpr rfl

theorem key?_eq_none {v : Value} {key : String} (h : item? v key = none) : key? v key = none := by
  rw [key?, h, Option.bind_none]

theorem str?_of_item {v : Value} {key s : String} (h : item? v key = some (.str s)) :
    str? v key = some s := by
  rw [str?, h]

/-- The kind of an event with a type and a payload. -/
theorem kind?_eq {v payload : Value} {t : String} (hty : item? v "event_type" = some (.str t))
    (hpl : item? v "payload" = some payload) : kind? v = kindOf t payload := by
  rw [kind?, str?_of_item hty, hpl]

/-- The types whose branch the source has. -/
theorem branchFields_ne_nil {event_type : String} (h : branchFields event_type ≠ []) :
    event_type = "UserCreated" ∨ event_type = "PostCreated" ∨ event_type = "MessageSent" ∨
      event_type = "PostLiked" ∨ event_type = "CommentAdded" := by
  unfold branchFields at h
  split_ifs at h with h₁ h₂ h₃ h₄ h₅
  · exact .inl h₁
  · exact .inr (.inl h₂)
  · exact .inr (.inr (.inl h₃))
  · exact .inr (.inr (.inr (.inl h₄)))
  · exact .inr (.inr (.inr (.inr h₅)))
  · exact absurd rfl h

/-- A type and a payload with the fields of its branch, the first of them a scalar, are an event. -/
theorem isSome_kindOf {event_type : String} {payload : Value} (hne : branchFields event_type ≠ [])
    (hmem : ∀ key ∈ branchFields event_type, (item? payload key).isSome)
    (hkey : ∀ key ∈ (branchFields event_type).head?, ∀ w, item? payload key = some w →
      w.scalar = true) : (kindOf event_type payload).isSome := by
  have hsome : ∀ key, key ∈ branchFields event_type → (branchFields event_type).head? = some key →
      ∃ k, key? payload key = some k := by
    intro key hk hhead
    obtain ⟨w, hw⟩ := Option.isSome_iff_exists.mp (hmem key hk)
    exact ⟨⟨w, hkey key hhead w hw⟩, key?_of_item hw⟩
  rcases branchFields_ne_nil hne with rfl | rfl | rfl | rfl | rfl
  · obtain ⟨u, hu⟩ := hsome "user_id" (by decide) rfl
    obtain ⟨login, hl⟩ := Option.isSome_iff_exists.mp (hmem "login" (by decide))
    obtain ⟨email, he⟩ := Option.isSome_iff_exists.mp (hmem "email" (by decide))
    simp [kindOf, hu, hl, he]
  · obtain ⟨u, hu⟩ := hsome "author_id" (by decide) rfl
    simp [kindOf, hu]
  · obtain ⟨u, hu⟩ := hsome "from_user_id" (by decide) rfl
    simp [kindOf, hu]
  · obtain ⟨p, hp⟩ := hsome "post_id" (by decide) rfl
    simp [kindOf, hp]
  · obtain ⟨p, hp⟩ := hsome "post_id" (by decide) rfl
    simp [kindOf, hp]

/-- A well-formed event with scalar ids is one of the five. -/
theorem WellFormed.isSome_kind? {b : Body} (hw : WellFormed b) (hs : ScalarIds b) :
    b.kind?.isSome := by
  obtain ⟨event_type, payload, hty, hpl, hne, hmem⟩ := hw.branch
  rw [Body.kind?, kind?_eq hty hpl]
  exact isSome_kindOf hne hmem (hs.payload event_type payload hty hpl)

/-- A well-formed event has an id. -/
theorem WellFormed.isSome_event_id? {b : Body} (hw : WellFormed b) (hs : ScalarIds b) :
    b.event_id?.isSome := by
  obtain ⟨w, hid⟩ := Option.isSome_iff_exists.mp hw.event_id
  rw [Body.event_id?, key?_of_item (w := ⟨w, hs.event_id w hid⟩) hid, Option.isSome_some]

/-- A value whose type is no string stands for no event. -/
theorem kind?_eq_none {v event_type : Value} (hty : item? v "event_type" = some event_type)
    (h : ∀ t, event_type ≠ .str t) : kind? v = none := by
  have hs : str? v "event_type" = none := by
    unfold str?
    split
    · next s hs => exact absurd (Option.some.inj (hty.symm.trans hs)) (h s)
    · rfl
  rw [kind?, hs]

/-! ## The protocol of one delivery -/

/-- How far the handling of a delivery has come. -/
inductive Phase
  | start
  /-- The event was found in `processed_events`. -/
  | duplicate
  /-- It was not. -/
  | absent
  /-- It has been inserted. -/
  | recorded
  /-- The view has been updated. -/
  | projected
  /-- A call has raised. -/
  | failed
  | settled
deriving DecidableEq

/-- The phases in which a delivery may be acknowledged: the event was there already, or its
view has been updated, or it has no branch. -/
def Phase.done (b : Body) : Phase → Prop
  | duplicate | projected => True
  | recorded => b.kind? = none
  | _ => False

/-- The calls allowed in a phase. A well-formed event is rejected after a failed call only. -/
def Phase.allows (b : Body) (g : Phase) : Call → Prop
  | .find_one coll filter =>
    g = start ∧ coll = .processed_events ∧
      ∃ id, b.event_id? = some id ∧ filter = .field "event_id" id.val
  | .insert_one coll doc =>
    g = absent ∧ coll = .processed_events ∧
      ∃ id, b.event_id? = some id ∧ doc.get "event_id" = some id.val
  | .update_one coll filter update upsert =>
    g = recorded ∧ b.event_id?.isSome ∧
      ∃ k, b.kind? = some k ∧ .update_one coll filter update upsert = k.call
  | .basic_ack => g.done b
  | .basic_nack requeue => requeue = true ∧ (g = failed ∨ ¬ WellFormed b)

/-- The phase after a call and its answer. -/
def Phase.after : (c : Call) → Except PyError c.Answer → Phase
  | .find_one .., .ok (some _) => duplicate
  | .find_one .., .ok none => absent
  | .insert_one .., .ok _ => recorded
  | .update_one .., .ok _ => projected
  | .basic_ack, .ok _ | .basic_nack _, .ok _ => settled
  | _, .error _ => failed

/-- The protocol of the delivery of a body. -/
def monitor (b : Body) : Prog.Monitor Call Call.Answer PyError Phase where
  ok := Phase.allows b
  next _ := Phase.after

/-- A delivery ends settled, or in the failure of its last call. -/
def Ended (_ : Except PyError Unit) (g : Phase) : Prop := g = .settled ∨ g = .failed

section Obeys

variable {M : Prog.Monitor Call Call.Answer PyError Phase} {g : Phase}

/-- Reading a key either continues with its value or raises. -/
theorem obeys_subscript {α : Type} {Q : Except PyError α → Phase → Prop} {v : Value}
    {key : String} {f : Value → Py α}
    (hsome : ∀ w, item? v key = some w → Prog.Obeys M Q g (f w))
    (hraise : item? v key = none → ∀ e, Q (.error e) g) :
    Prog.Obeys M Q g (subscript v key >>= f) := by
  unfold subscript
  split
  · next fs =>
    split
    · next w hw => exact hsome w hw
    · next hn => exact hraise hn _
  · next hno =>
    refine hraise ?_ _
    unfold item?
    split
    · next fs => exact absurd rfl (hno fs)
    · rfl

theorem obeys_update_one {Q : Except PyError Unit → Phase → Prop} {coll : Coll} {filter : Filter}
    {update : Update} {upsert : Bool} (hok : M.ok g (.update_one coll filter update upsert))
    (hQ : ∀ r, Q r (M.next g (.update_one coll filter update upsert) r)) :
    Prog.Obeys M Q g (update_one coll filter update upsert) :=
  Prog.obeys_perform.mpr ⟨hok, hQ⟩

end Obeys

/-- What `process_event` leaves behind: if it returns, the delivery may be acknowledged; if it
raises, a call has failed or the event is not well formed. -/
def Returned (b : Body) (r : Except PyError Unit) (g : Phase) : Prop :=
  match r with
  | .ok _ => g.done b
  | .error _ => g = .failed ∨ ¬ WellFormed b

/-- After its `update_one` the event is projected, or the call has failed. -/
theorem returned_after_update (b : Body) {coll : Coll} {filter : Filter} {update : Update}
    {upsert : Bool} (r : Except PyError Unit) :
    Returned b r ((monitor b).next .recorded (.update_one coll filter update upsert) r) := by
  cases r with
  | ok _ => trivial
  | error _ => exact .inl rfl

/-- An event of no kind is not well formed. -/
theorem not_wellFormed_of_kind {v : Value} (hs : ScalarIds (.json v)) (h : kind? v = none) :
    ¬ WellFormed (.json v) := by
  intro hw
  have hk := hw.isSome_kind? hs
  rw [Body.kind?, Body.value, h] at hk
  cases hk

/-- A well-formed event has its five fields. -/
theorem not_wellFormed_of_item {v : Value} {key : String} (h : item? v key = none)
    (hkey : key ∈ ["event_id", "event_type", "payload", "occurred_at", "producer"]) :
    ¬ WellFormed (.json v) := by
  simp only [List.mem_cons, List.not_mem_nil, or_false] at hkey
  intro hw
  obtain ⟨event_type, payload, hty, hpl, -⟩ := hw.branch
  rcases hkey with rfl | rfl | rfl | rfl | rfl
  · have hid := hw.event_id
    rw [Body.value, h] at hid
    cases hid
  · cases h.symm.trans hty
  · cases h.symm.trans hpl
  · have hat := hw.occurred_at
    rw [Body.value, h] at hat
    cases hat
  · have hpr := hw.producer
    rw [Body.value, h] at hpr
    cases hpr

/-- `process_event` keeps to the protocol. -/
theorem process_event_obeys {v : Value} (h : ScalarIds (.json v)) :
    Prog.Obeys (monitor (.json v)) (Returned (.json v)) .start (process_event v) := by
  have hitem : ∀ {key g}, item? v key = none →
      key ∈ ["event_id", "event_type", "payload", "occurred_at", "producer"] →
      ∀ e, Returned (.json v) (.error e) g :=
    fun hn hkey _ => .inr (not_wellFormed_of_item hn hkey)
  unfold process_event
  refine obeys_subscript (fun event_id hid => ?_) fun hn => hitem hn (by simp)
  refine obeys_subscript (fun event_type hty => ?_) fun hn => hitem hn (by simp)
  refine obeys_subscript (fun payload hpl => ?_) fun hn => hitem hn (by simp)
  obtain ⟨id, rfl⟩ : ∃ id : Key, id.val = event_id := ⟨⟨event_id, h.event_id event_id hid⟩, rfl⟩
  have hid' : (Body.json v).event_id? = some id := key?_of_item hid
  refine Prog.obeys_bind.mpr (Prog.obeys_perform.mpr ⟨⟨rfl, rfl, id, hid', rfl⟩, fun r => ?_⟩)
  rcases r with e | found
  · exact .inl rfl
  rcases found with _ | d
  · refine obeys_subscript (fun occurred_at _ => ?_) fun hn => hitem hn (by simp)
    refine obeys_subscript (fun producer _ => ?_) fun hn => hitem hn (by simp)
    refine Prog.obeys_bind.mpr (Prog.obeys_perform.mpr ⟨⟨rfl, rfl, id, hid', rfl⟩, fun r => ?_⟩)
    rcases r with e | _
    · exact .inl rfl
    have hkey : ∀ {t key w}, event_type = .str t → (branchFields t).head? = some key →
        item? payload key = some w → ∃ k : Key, k.val = w :=
      fun ht hk hw => ⟨⟨_, h.payload _ payload (ht ▸ hty) hpl _ hk _ hw⟩, rfl⟩
    have hup : ∀ {k : EventKind} {coll filter update upsert}, kind? v = some k →
        Call.update_one coll filter update upsert = k.call →
        Prog.Obeys (monitor (.json v)) (Returned (.json v)) .recorded
          (update_one coll filter update upsert) :=
      fun hk hc => obeys_update_one ⟨rfl, by rw [hid']; rfl, _, hk, hc⟩ (returned_after_update _)
    have hkind : kind? v = none → ∀ e, Returned (.json v) (.error e) .recorded :=
      fun hn _ => .inr (not_wellFormed_of_kind h hn)
    -- one case per branch of the source: it reads its fields and makes its `update_one`
    split_ifs with h₁ h₂ h₃ h₄ h₅
    · subst h₁
      have hk := kind?_eq hty hpl
      rw [kindOf, if_pos rfl] at hk
      refine obeys_subscript (fun w hw => ?_) fun hn => hkind (by rw [hk, key?_eq_none hn])
      refine obeys_subscript (fun w' hw' => ?_) fun hn => hkind (by rw [hk, key?_eq_none hn])
      obtain ⟨u, rfl⟩ := hkey rfl rfl hw
      obtain rfl : u.val = w' := Option.some.inj (hw.symm.trans hw')
      rw [key?_of_item hw] at hk
      refine obeys_subscript (fun login hl => ?_) fun hn => hkind (by rw [hk, hn])
      refine obeys_subscript (fun email he => ?_) fun hn => hkind (by rw [hk, hl, hn])
      exact hup (k := .UserCreated u login email) (by rw [hk, hl, he]) rfl
    · subst h₂
      have hk := kind?_eq hty hpl
      simp only [kindOf, String.reduceEq, if_false, if_true] at hk
      refine obeys_subscript (fun w hw => ?_) fun hn => hkind (by rw [hk, key?_eq_none hn]; rfl)
      obtain ⟨u, rfl⟩ := hkey rfl rfl hw
      exact hup (k := .PostCreated u) (by rw [hk, key?_of_item hw]; rfl) rfl
    · subst h₃
      have hk := kind?_eq hty hpl
      simp only [kindOf, String.reduceEq, if_false, if_true] at hk
      refine obeys_subscript (fun w hw => ?_) fun hn => hkind (by rw [hk, key?_eq_none hn]; rfl)
      obtain ⟨u, rfl⟩ := hkey rfl rfl hw
      exact hup (k := .MessageSent u) (by rw [hk, key?_of_item hw]; rfl) rfl
    · subst h₄
      have hk := kind?_eq hty hpl
      simp only [kindOf, String.reduceEq, if_false, if_true] at hk
      refine obeys_subscript (fun w hw => ?_) fun hn => hkind (by rw [hk, key?_eq_none hn]; rfl)
      refine obeys_subscript (fun w' hw' => ?_) fun hn => hkind (by rw [hk, key?_eq_none hn]; rfl)
      obtain ⟨p, rfl⟩ := hkey rfl rfl hw
      obtain rfl : p.val = w' := Option.some.inj (hw.symm.trans hw')
      exact hup (k := .PostLiked p) (by rw [hk, key?_of_item hw]; rfl) rfl
    · subst h₅
      have hk := kind?_eq hty hpl
      simp only [kindOf, String.reduceEq, if_false, if_true] at hk
      refine obeys_subscript (fun w hw => ?_) fun hn => hkind (by rw [hk, key?_eq_none hn]; rfl)
      refine obeys_subscript (fun w' hw' => ?_) fun hn => hkind (by rw [hk, key?_eq_none hn]; rfl)
      obtain ⟨p, rfl⟩ := hkey rfl rfl hw
      obtain rfl : p.val = w' := Option.some.inj (hw.symm.trans hw')
      exact hup (k := .CommentAdded p) (by rw [hk, key?_of_item hw]; rfl) rfl
    · -- no branch of the source: the event has no kind
      have hnone : kind? v = none := by
        by_cases ht : ∃ t, event_type = .str t
        · obtain ⟨t, rfl⟩ := ht
          simp only [Value.str.injEq] at h₁ h₂ h₃ h₄ h₅
          rw [kind?_eq hty hpl, kindOf, if_neg h₁, if_neg h₂, if_neg h₃, if_neg h₄, if_neg h₅]
        · exact kind?_eq_none hty fun t h => ht ⟨t, h⟩
      exact hnone
  · trivial

/-- `callback` keeps to the protocol of its delivery. -/
theorem callback_obeys {b : Body} (h : ScalarIds b) :
    Prog.Obeys (monitor b) Ended .start (callback b) := by
  have hnack : ∀ g, g = .failed ∨ ¬ WellFormed b →
      Prog.Obeys (monitor b) Ended g (Prog.perform (Call.basic_nack true)) := by
    intro g hg
    refine Prog.obeys_perform.mpr ⟨⟨rfl, hg⟩, fun r => ?_⟩
    rcases r with e | _
    · exact .inr rfl
    · exact .inl rfl
  refine Prog.obeys_tryCatch.mpr ?_
  cases b with
  | invalid => exact hnack _ (.inr fun hw => by cases hw.event_id)
  | json v =>
    rw [json_loads, Prog.ret_bind]
    refine Prog.obeys_bind.mpr ((process_event_obeys h).mono fun r g hr => ?_)
    rcases r with e | _
    · exact hnack g hr
    · refine Prog.obeys_perform.mpr ⟨hr, fun r' => ?_⟩
      rcases r' with e | _
      · exact hnack _ (.inl rfl)
      · exact .inl rfl

end SocialNetwork.EventService

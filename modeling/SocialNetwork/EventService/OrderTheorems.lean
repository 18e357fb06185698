import SocialNetwork.EventService.DeduplicationTheorems

/-!
# The read model and the order of events

Without failures, the consumer does to the views what its events mean, one after the other
(`consume_views`). A document is then the fold of its own events, and these commute on an
existing document; what depends on the order is what the first of them creates. Only
`UserCreated` creates a document with all its counters.
-/

namespace SocialNetwork.EventService

open DocStore

/-! ## One consumer without failures -/

/-- What the store looks like in each phase of the delivery of an event recorded nowhere yet. -/
def Fresh (id : Key) (k : EventKind) (db₀ : Db) : Phase → Db → Prop
  | .start, db | .absent, db => db = db₀
  | .recorded, db => ∃ d : Doc, d.get "event_id" = some id.val ∧
      db = { db₀ with processed_events := db₀.processed_events ++ [d] }
  | .projected, db | .settled, db => ∃ d : Doc, d.get "event_id" = some id.val ∧
      Db.call k.call { db₀ with processed_events := db₀.processed_events ++ [d] } = (db, .ok ())
  | .duplicate, _ | .failed, _ => False

theorem fresh_call {b : Body} {id : Key} {k : EventKind} {db₀ : Db} (hw : WellFormed b)
    (hid : b.event_id? = some id) (hk : b.kind? = some k) (hv : Views db₀)
    (hfresh : db₀.recorded id = []) (g : Phase) (c : Call) (db : Db) (hok : g.allows b c)
    (h : Fresh id k db₀ g db) :
    Fresh id k db₀ (Phase.after c (Db.call c db).2) (Db.call c db).1 := by
  cases c with
  | find_one coll filter =>
    obtain ⟨rfl, rfl, id', hid', rfl⟩ := hok
    have he : id' = id := Option.some.inj (hid'.symm.trans hid)
    have hdb : db = db₀ := h
    subst he hdb
    have hnone : findOne (.field "event_id" id'.val) (db.coll .processed_events) = none :=
      List.find?_eq_none.mpr (List.filter_eq_nil_iff.mp hfresh)
    simp only [Db.call, hnone, Phase.after]
    rfl
  | insert_one coll doc =>
    obtain ⟨rfl, rfl, id', hid', hdoc⟩ := hok
    have he : id' = id := Option.some.inj (hid'.symm.trans hid)
    have hdb : db = db₀ := h
    subst he hdb
    exact ⟨doc, hdoc, rfl⟩
  | update_one coll filter update upsert =>
    obtain ⟨rfl, -, k', hk', hc⟩ := hok
    have he : k' = k := Option.some.inj (hk'.symm.trans hk)
    obtain ⟨d, hd, hdb⟩ := h
    subst he hdb
    obtain ⟨db', hcall, -⟩ := (hv.record d).project k'
    rw [hc, hcall]
    exact ⟨d, hd, hcall⟩
  -- only a callback that has projected, or found a duplicate, may ack a known event
  | basic_ack =>
    cases g with
    | projected => exact h
    | duplicate => cases h
    | recorded =>
      have hnone : b.kind? = none := hok
      rw [hnone] at hk
      cases hk
    | start => cases hok
    | absent => cases hok
    | failed => cases hok
    | settled => cases hok
  | basic_nack requeue =>
    obtain ⟨-, rfl | hill⟩ := hok
    · cases h
    · exact absurd hw hill

/-- A new event, handled without failures, is recorded and does to the views what it means. -/
theorem consume_one {b : Body} {id : Key} {k : EventKind} {db : Db} (hw : WellFormed b)
    (hs : ScalarIds b) (hid : b.event_id? = some id) (hk : b.kind? = some k) (hv : Views db)
    (hfresh : db.recorded id = []) :
    Views (consume db [b]) ∧
      (∀ v, v ≠ .processed_events →
        readModel (consume db [b]) v = ReadModel.step k (readModel db) v) ∧
      ∀ id', id' ≠ id → (consume db [b]).recorded id' = db.recorded id' := by
  obtain ⟨g, hg, rfl | rfl⟩ := (callback_obeys hs).eval (I := Fresh id k db)
    (fresh_call hw hid hk hv hfresh) (s := db) rfl
  · obtain ⟨d, hd, hcall⟩ := hg
    obtain ⟨db', hcall', hv', hproc, hmodel⟩ := (hv.record d).project k
    have hdb' : consume db [b] = db' := (congrArg Prod.fst (hcall.symm.trans hcall'))
    rw [hdb']
    refine ⟨hv', fun v hne => ?_, fun id' hne => ?_⟩
    · rw [hmodel]
      cases v with
      | processed_events => exact absurd rfl hne
      | user_activity_view => rfl
      | post_activity_view => rfl
    · rw [Db.recorded, hproc]
      have happ := recorded_append db d hd id'
      rw [if_neg (Ne.symm hne), List.append_nil] at happ
      exact happ
  · cases hg

/-! ## Documents as folds of their events -/

/-- The event changes the document of a key. -/
def EventKind.on (v : Coll) (key : Key) (k : EventKind) : Bool :=
  decide (k.view = v) && decide (k.key = key)

namespace ReadModel

/-- The effect of events one after the other. -/
def run (m : ReadModel) (ks : List EventKind) : ReadModel := ks.foldl (fun m k => step k m) m

/-- The document that its events make. -/
def document : List EventKind → Option Fields
  | [] => none
  | k :: ks => some (ks.foldl (fun F k => k.put F) (k.put k.init))

/-- A document is changed by its own events only. -/
theorem run_apply (m : ReadModel) (ks : List EventKind) (v : Coll) (key : Key) :
    run m ks v key =
      (ks.filter (EventKind.on v key)).foldl (fun o k => some (k.put (o.getD k.init))) (m v key) := by
  induction ks generalizing m with
  | nil => rfl
  | cons k ks ih =>
    have htail := ih (step k m)
    by_cases hon : k.view = v ∧ k.key = key
    · obtain ⟨rfl, rfl⟩ := hon
      have hself : EventKind.on k.view k.key k = true := by simp [EventKind.on]
      rw [List.filter_cons_of_pos hself, List.foldl_cons, ← step_self]
      exact htail
    · have hother : ¬ EventKind.on v key k = true := by simpa [EventKind.on] using hon
      rw [List.filter_cons_of_neg hother,
        ← step_other (m := m) (k := k) (fun hc => hon ⟨hc.1.symm, hc.2.symm⟩)]
      exact htail

theorem run_congr {m m' : ReadModel} {v : Coll} {key : Key} (h : m v key = m' v key)
    (ks : List EventKind) : run m ks v key = run m' ks v key := by
  rw [run_apply, run_apply, h]

theorem foldl_some (ks : List EventKind) (F : Fields) :
    ks.foldl (fun o k => some (k.put (o.getD k.init))) (some F) =
      some (ks.foldl (fun F k => k.put F) F) := by
  induction ks generalizing F with
  | nil => rfl
  | cons k ks ih => exact ih (k.put F)

theorem run_empty (ks : List EventKind) (v : Coll) (key : Key) :
    run empty ks v key = document (ks.filter (EventKind.on v key)) := by
  rw [run_apply]
  cases ks.filter (EventKind.on v key) with
  | nil => rfl
  | cons k rest => exact foldl_some rest _

end ReadModel

/-! ## What depends on the order -/

namespace EventKind

/-- The event is the `UserCreated` of a user. -/
def createsUser (u : Key) : EventKind → Bool
  | UserCreated u' _ _ => u' = u
  | _ => false

/-- On an existing document two events commute, unless both set its login and email. -/
theorem put_comm {k k' : EventKind} (hview : k.view = k'.view) (hkey : k.key = k'.key)
    (h : ∀ u, k.createsUser u = true → k'.createsUser u = true → k = k') (F : Fields) :
    k'.put (k.put F) = k.put (k'.put F) := by
  funext f
  cases k with
  | UserCreated u login email =>
    cases k' with
    | UserCreated u' login' email' =>
      have hu : u = u' := hkey
      rw [h u (by simp [createsUser]) (by simp [createsUser, hu])]
    -- one of the two writes the profile, the other a count
    | PostCreated a => simp only [put]; split_ifs <;> simp_all
    | MessageSent a => simp only [put]; split_ifs <;> simp_all
    | PostLiked p => cases hview
    | CommentAdded p => cases hview
  | PostCreated a =>
    cases k' with
    | UserCreated u login email => simp only [put]; split_ifs <;> simp_all
    | PostCreated a' => rfl
    | MessageSent a' => simp only [put]; split_ifs <;> simp_all
    | PostLiked p => cases hview
    | CommentAdded p => cases hview
  | MessageSent a =>
    cases k' with
    | UserCreated u login email => simp only [put]; split_ifs <;> simp_all
    | PostCreated a' => simp only [put]; split_ifs <;> simp_all
    | MessageSent a' => rfl
    | PostLiked p => cases hview
    | CommentAdded p => cases hview
  | PostLiked p =>
    cases k' with
    | UserCreated u login email => cases hview
    | PostCreated a' => cases hview
    | MessageSent a' => cases hview
    | PostLiked p' =>
      have hp : p = p' := hkey
      rw [hp]
    | CommentAdded p' =>
      have hp : p = p' := hkey
      grind [put]
  | CommentAdded p =>
    cases k' with
    | UserCreated u login email => cases hview
    | PostCreated a' => cases hview
    | MessageSent a' => cases hview
    | PostLiked p' =>
      have hp : p = p' := hkey
      grind [put]
    | CommentAdded p' =>
      have hp : p = p' := hkey
      rw [hp]

theorem key_of_createsUser {k : EventKind} {u : Key} (h : k.createsUser u = true) :
    k.key = u := by
  cases k <;> simp_all [createsUser, key]

/-- No event touches `likes_received` of an existing document. -/
theorem put_likes_received (k : EventKind) (F : Fields) :
    k.put F "likes_received" = F "likes_received" := by
  cases k <;> simp [put]

/-- A new document has `likes_received` when a `UserCreated` creates it. -/
theorem init_likes_received (k : EventKind) :
    k.init "likes_received" = if k.createsUser k.key then some (.int 0) else none := by
  cases k <;> simp [init, createsUser, key]

/-- What a new document holds, if no `UserCreated` creates it. -/
theorem init_eq {k k' : EventKind} (hview : k.view = k'.view) (hkey : k.key = k'.key)
    (h : k.createsUser k.key = k'.createsUser k'.key) : k.init = k'.init := by
  cases k <;> cases k' <;> simp_all [createsUser, key, view] <;> rfl

end EventKind

/-- The first of a user's events is its `UserCreated`. -/
def createdFirst (ks : List EventKind) (u : Key) : Bool :=
  (ks.find? (EventKind.on .user_activity_view u)).any (EventKind.createsUser u)

namespace ReadModel

/-- The events of one document. -/
def Of (v : Coll) (key : Key) (ks : List EventKind) : Prop :=
  ∀ k ∈ ks, k.view = v ∧ k.key = key

/-- The document was created by a `UserCreated` when it has `likes_received`. -/
theorem document_likes_received {v : Coll} {key : Key} {ks : List EventKind}
    (h : Of v key ks) :
    (document ks).bind (fun F => F "likes_received") =
      if ks.head?.any (EventKind.createsUser key) then some (.int 0) else none := by
  cases ks with
  | nil => rfl
  | cons k ks =>
    have hfold : ∀ (ks : List EventKind) (F : Fields),
        ks.foldl (fun F k => k.put F) F "likes_received" = F "likes_received" := by
      intro ks
      induction ks with
      | nil => exact fun F => rfl
      | cons k ks ih => exact fun F => (ih (k.put F)).trans (k.put_likes_received F)
    have hkey : k.key = key := (h k (List.mem_cons_self ..)).2
    rw [document, Option.bind_some, hfold, k.put_likes_received, k.init_likes_received, hkey]
    rfl

/-- The same events in two orders make the same document, if both or neither start with the
`UserCreated`. -/
theorem document_eq {v : Coll} {key : Key} {ks₁ ks₂ : List EventKind} (h : Of v key ks₁)
    (hperm : ks₁.Perm ks₂) (hone : ks₁.countP (EventKind.createsUser key) ≤ 1)
    (hfirst : ks₁.head?.any (EventKind.createsUser key) =
      ks₂.head?.any (EventKind.createsUser key)) :
    document ks₁ = document ks₂ := by
  have h' : Of v key ks₂ := fun k hk => h k (hperm.mem_iff.mpr hk)
  cases ks₁ with
  | nil =>
    rw [List.Perm.eq_nil hperm.symm]
  | cons k₁ r₁ =>
    cases ks₂ with
    | nil => exact absurd (List.Perm.eq_nil hperm) (List.cons_ne_nil _ _)
    | cons k₂ r₂ =>
      have h₁ := h k₁ (List.mem_cons_self ..)
      have h₂ := h' k₂ (List.mem_cons_self ..)
      have hinit : k₁.init = k₂.init := by
        refine EventKind.init_eq (h₁.1.trans h₂.1.symm) (h₁.2.trans h₂.2.symm) ?_
        rw [h₁.2, h₂.2]
        exact hfirst
      -- all events of one document commute, but for two registrations, and there is only one
      have hcomm : ∀ x ∈ k₁ :: r₁, ∀ y ∈ k₁ :: r₁, ∀ F : Fields,
          y.put (x.put F) = x.put (y.put F) := by
        intro x hx y hy F
        refine EventKind.put_comm ((h x hx).1.trans (h y hy).1.symm)
          ((h x hx).2.trans (h y hy).2.symm) (fun u hxu hyu => ?_) F
        have hu : u = key := (EventKind.key_of_createsUser hxu).symm.trans (h x hx).2
        subst hu
        exact Lists.eq_of_countP_le_one hone hx hy hxu hyu
      have hfold := hperm.foldl_eq' (f := fun F k => k.put F) hcomm k₁.init
      rw [List.foldl_cons, List.foldl_cons] at hfold
      rw [document, document, hfold, hinit]

theorem of_filter (v : Coll) (key : Key) (ks : List EventKind) :
    Of v key (ks.filter (EventKind.on v key)) := by
  intro k hk
  have hon := (List.mem_filter.mp hk).2
  simpa [EventKind.on] using hon

/-- Who created a user's document. -/
theorem head_filter (ks : List EventKind) (u : Key) :
    (ks.filter (EventKind.on .user_activity_view u)).head?.any (EventKind.createsUser u) =
      createdFirst ks u := by
  rw [List.head?_filter, createdFirst]

/-- A user has `likes_received` when its `UserCreated` comes first, and it is zero. -/
theorem run_likes_received (ks : List EventKind) (u : Key) :
    (run empty ks .user_activity_view u).bind (fun F => F "likes_received") =
      if createdFirst ks u then some (.int 0) else none := by
  rw [run_empty, document_likes_received (of_filter _ _ _), head_filter]

/-- In two orders of the same events, with one `UserCreated` for each user, the read models are
the same just when the users created first are the same. -/
theorem run_eq_iff {ks₁ ks₂ : List EventKind} (hperm : ks₁.Perm ks₂)
    (hone : ∀ u, ks₁.countP (EventKind.createsUser u) ≤ 1) :
    run empty ks₁ = run empty ks₂ ↔ ∀ u, createdFirst ks₁ u = createdFirst ks₂ u := by
  refine ⟨fun heq u => ?_, fun hfirst => ?_⟩
  · -- `likes_received` of the user's document tells who created it
    have hlikes := run_likes_received ks₁ u
    rw [heq, run_likes_received] at hlikes
    cases h₁ : createdFirst ks₁ u <;> cases h₂ : createdFirst ks₂ u <;> simp_all
  · funext v key
    rw [run_empty, run_empty]
    refine document_eq (of_filter v key ks₁) (hperm.filter _) ?_ ?_
    · exact Nat.le_trans (List.Sublist.countP_le List.filter_sublist) (hone key)
    · by_cases hv : v = .user_activity_view
      · rw [hv, head_filter, head_filter]
        exact hfirst key
      · -- only users are created by a `UserCreated`
        have hno : ∀ ks : List EventKind,
            (ks.filter (EventKind.on v key)).head?.any (EventKind.createsUser key) = false := by
          intro ks
          cases hhd : (ks.filter (EventKind.on v key)).head? with
          | none => rfl
          | some k =>
            have hk := (of_filter v key ks k (List.mem_of_mem_head? hhd)).1
            rw [Option.any_some]
            cases k with
            | UserCreated u login email => exact absurd hk.symm hv
            | _ => rfl
        rw [hno, hno]

end ReadModel

/-! ## Two orders -/

/-- The events of the bodies. -/
def kinds (bodies : List Body) : List EventKind := bodies.filterMap fun b => b.kind?

/-- New events, handled one after the other without failures. -/
theorem consume_views {bodies : List Body} {db : Db} (hv : Views db)
    (hw : ∀ b ∈ bodies, WellFormed b) (hs : ∀ b ∈ bodies, ScalarIds b)
    (hids : (bodies.map fun b => b.event_id?).Nodup)
    (hfresh : ∀ b ∈ bodies, ∀ id, b.event_id? = some id → db.recorded id = []) :
    Views (consume db bodies) ∧ ∀ v, v ≠ .processed_events → ∀ key,
      readModel (consume db bodies) v key =
        ReadModel.run (readModel db) (kinds bodies) v key := by
  induction bodies generalizing db with
  | nil => exact ⟨hv, fun v _ key => rfl⟩
  | cons b bodies ih =>
    have hwb : WellFormed b := hw b (List.mem_cons_self ..)
    have hsb : ScalarIds b := hs b (List.mem_cons_self ..)
    obtain ⟨id, hid⟩ := Option.isSome_iff_exists.mp (hwb.isSome_event_id? hsb)
    obtain ⟨k, hk⟩ := Option.isSome_iff_exists.mp (hwb.isSome_kind? hsb)
    rw [List.map_cons, List.nodup_cons] at hids
    obtain ⟨hv', hmodel, hrec⟩ :=
      consume_one hwb hsb hid hk hv (hfresh b (List.mem_cons_self ..) id hid)
    -- the records of the first event do not hide the later ones
    have hfresh' : ∀ x ∈ bodies, ∀ id', x.event_id? = some id' →
        (consume db [b]).recorded id' = [] := by
      intro x hx id' hid'
      have hne : id' ≠ id := by
        intro he
        refine hids.1 ?_
        rw [hid, ← he, ← hid']
        exact List.mem_map_of_mem hx
      rw [hrec id' hne]
      exact hfresh x (List.mem_cons_of_mem _ hx) id' hid'
    obtain ⟨hv'', hmodel'⟩ := ih hv' (fun x hx => hw x (List.mem_cons_of_mem _ hx))
      (fun x hx => hs x (List.mem_cons_of_mem _ hx)) hids.2 hfresh'
    refine ⟨hv'', fun v hne key => ?_⟩
    have hkinds : kinds (b :: bodies) = k :: kinds bodies := List.filterMap_cons_some hk
    have hrun := ReadModel.run_congr (congrFun (hmodel v hne) key) (kinds bodies)
    rw [hkinds]
    exact (hmodel' v hne key).trans hrun

/-- Both views hold the same documents. -/
def SameViews (db db' : Db) : Prop :=
  ∀ v, v ≠ .processed_events →
    (∀ d ∈ db.coll v, ∃ d' ∈ db'.coll v, d.Same d') ∧
      ∀ d' ∈ db'.coll v, ∃ d ∈ db.coll v, d'.Same d

/-- Views with one document per key hold the same documents when their read models agree. -/
theorem sameViews_iff {db db' : Db} (h : Views db) (h' : Views db') :
    SameViews db db' ↔
      ∀ v, v ≠ .processed_events → ∀ key, readModel db v key = readModel db' v key := by
  constructor
  · intro hsame v hv key
    -- each key names one document, so equal lists of documents have equal documents under it
    have hsub : ∀ {db db' : Db}, Views db' →
        (∀ d ∈ db.coll v, ∃ d' ∈ db'.coll v, d.Same d') → Views db → ∀ F,
          readModel db v key = some F → readModel db' v key = some F := by
      intro db db' h' hdocs h F hF
      obtain ⟨d, hd, rfl⟩ := Option.map_eq_some_iff.mp hF
      obtain ⟨hmem, hkey⟩ := (h.keyed v hv).of_byKey hd
      obtain ⟨d', hd', hget⟩ := hdocs d hmem
      have hkey' : d'.get v.keyField = some key.val := (hget v.keyField).symm.trans hkey
      rw [readModel, (h'.keyed v hv).byKey_of_mem hd' hkey', Option.map_some]
      exact congrArg some (funext fun f => (hget f).symm)
    refine Option.ext fun F => ⟨?_, ?_⟩
    · exact hsub h' (hsame v hv).1 h F
    · exact hsub h (hsame v hv).2 h' F
  · intro heq v hv
    have hdocs : ∀ {db db' : Db}, Views db → Views db' →
        (∀ key, readModel db v key = readModel db' v key) →
          ∀ d ∈ db.coll v, ∃ d' ∈ db'.coll v, d.Same d' := by
      intro db db' h h' heq d hd
      obtain ⟨key, hkey⟩ := (h.keyed v hv).has d hd
      have hF : readModel db' v key = some d.get := by
        rw [← heq key, readModel, (h.keyed v hv).byKey_of_mem hd hkey, Option.map_some]
      obtain ⟨d', hd', hget⟩ := Option.map_eq_some_iff.mp hF
      exact ⟨d', ((h'.keyed v hv).of_byKey hd').1, fun f => (congrFun hget f).symm⟩
    exact ⟨hdocs h h' (heq v hv), hdocs h' h fun key => (heq v hv key).symm⟩

/-- **Order of events.** New events with distinct ids, all of them scalars, and one `UserCreated` for
each user leave the same documents in two orders just when, for each user, the `UserCreated` is the
first of the user's events in both orders or in neither. -/
theorem order_independent_iff {l₁ l₂ : List Body} (hperm : l₁.Perm l₂)
    (hw : ∀ b ∈ l₁, WellFormed b) (hs : ∀ b ∈ l₁, ScalarIds b)
    (hids : (l₁.map fun b => b.event_id?).Nodup)
    (hone : ∀ u, (kinds l₁).countP (EventKind.createsUser u) ≤ 1) :
    SameViews (consume Db.empty l₁) (consume Db.empty l₂) ↔
      ∀ u, createdFirst (kinds l₁) u = createdFirst (kinds l₂) u := by
  have hw' : ∀ b ∈ l₂, WellFormed b := fun b hb => hw b (hperm.mem_iff.mpr hb)
  have hs' : ∀ b ∈ l₂, ScalarIds b := fun b hb => hs b (hperm.mem_iff.mpr hb)
  have hids' : (l₂.map fun b => b.event_id?).Nodup := (hperm.map _).nodup_iff.mp hids
  obtain ⟨hv₁, hm₁⟩ := consume_views views_empty hw hs hids fun _ _ _ _ => rfl
  obtain ⟨hv₂, hm₂⟩ := consume_views views_empty hw' hs' hids' fun _ _ _ _ => rfl
  have hkinds : (kinds l₁).Perm (kinds l₂) := hperm.filterMap _
  rw [sameViews_iff hv₁ hv₂, ← ReadModel.run_eq_iff hkinds hone]
  have hempty : readModel Db.empty = ReadModel.empty := by
    funext v key
    cases v <;> rfl
  constructor
  · intro heq
    funext v key
    by_cases hv : v = .processed_events
    · -- no event has its document among the recorded events
      have hno : ∀ ks : List EventKind, ks.filter (EventKind.on v key) = [] := by
        intro ks
        refine List.filter_eq_nil_iff.mpr fun k _ hon => ?_
        rw [EventKind.on, Bool.and_eq_true, decide_eq_true_eq] at hon
        exact k.view_ne (hon.1.trans hv)
      rw [ReadModel.run_empty, ReadModel.run_empty, hno, hno]
    · rw [← hempty, ← hm₁ v hv key, ← hm₂ v hv key]
      exact heq v hv key
  · intro heq v hv key
    rw [hm₁ v hv key, hm₂ v hv key, hempty]
    exact congrFun (congrFun heq v) key

/-- A user, its post, and a post of another user. -/
theorem order_independent_iff_posts :
    SameViews
      (consume Db.empty [userCreated "e-1" "u-1" "alice", postCreated "e-2" "u-1",
        postCreated "e-3" "u-2"])
      (consume Db.empty [userCreated "e-1" "u-1" "alice", postCreated "e-3" "u-2",
        postCreated "e-2" "u-1"]) := by
  have hkinds : kinds [userCreated "e-1" "u-1" "alice", postCreated "e-2" "u-1",
      postCreated "e-3" "u-2"] = [.UserCreated "u-1" (.str "alice") (.str "alice@example.com"),
        .PostCreated "u-1", .PostCreated "u-2"] := by decide
  have hkinds' : kinds [userCreated "e-1" "u-1" "alice", postCreated "e-3" "u-2",
      postCreated "e-2" "u-1"] = [.UserCreated "u-1" (.str "alice") (.str "alice@example.com"),
        .PostCreated "u-2", .PostCreated "u-1"] := by decide
  refine (order_independent_iff ((List.Perm.swap _ _ _).cons _) ?_ ?_ (by decide) ?_).mpr ?_
  · simp [wellFormed_userCreated, wellFormed_postCreated]
  · simp [scalarIds_userCreated, scalarIds_postCreated]
  · intro u
    rw [hkinds]
    simp only [List.countP_cons, List.countP_nil, EventKind.createsUser]
    split_ifs <;> simp_all
  · intro u
    rw [hkinds, hkinds']
    simp only [createdFirst, List.find?_cons, EventKind.on, EventKind.view, EventKind.key]
    by_cases h₁ : "u-1" = u
    · simp [h₁]
    · by_cases h₂ : "u-2" = u <;> simp [h₁, h₂]

/-- The post first, or the user first: `likes_received` is there in one order only. -/
theorem order_of_user_and_post_matters :
    ([userCreated "e-1" "u-1" "alice", postCreated "e-2" "u-1"].map fun b => b.event_id?).Nodup ∧
      (∀ b ∈ [userCreated "e-1" "u-1" "alice", postCreated "e-2" "u-1"], WellFormed b) ∧
      (∀ u, (kinds [userCreated "e-1" "u-1" "alice", postCreated "e-2" "u-1"]).countP
        (EventKind.createsUser u) ≤ 1) ∧
      ¬ SameViews (consume Db.empty [userCreated "e-1" "u-1" "alice", postCreated "e-2" "u-1"])
        (consume Db.empty [postCreated "e-2" "u-1", userCreated "e-1" "u-1" "alice"]) := by
  refine ⟨by decide, ?_, ?_, ?_⟩
  · simp [wellFormed_userCreated, wellFormed_postCreated]
  · intro u
    have hkinds : kinds [userCreated "e-1" "u-1" "alice", postCreated "e-2" "u-1"] =
        [.UserCreated "u-1" (.str "alice") (.str "alice@example.com"), .PostCreated "u-1"] := by
      decide
    rw [hkinds]
    simp only [List.countP_cons, List.countP_nil, EventKind.createsUser]
    split_ifs <;> simp_all
  · intro hsame
    -- the field that tells the two orders apart
    have hleft : ((consume Db.empty [userCreated "e-1" "u-1" "alice", postCreated "e-2" "u-1"]).coll
        .user_activity_view).map (·.get "likes_received") = [some (.int 0)] := by decide
    have hright : ((consume Db.empty [postCreated "e-2" "u-1", userCreated "e-1" "u-1" "alice"]).coll
        .user_activity_view).map (·.get "likes_received") = [none] := by decide
    have hmem : some (Value.int 0) ∈ [some (Value.int 0)] := List.mem_singleton_self _
    rw [← hleft] at hmem
    obtain ⟨d, hd, hget⟩ := List.mem_map.mp hmem
    obtain ⟨d', hd', heq⟩ := (hsame .user_activity_view (by decide)).1 d hd
    have hmem' := List.mem_map_of_mem (f := (·.get "likes_received")) hd'
    rw [hright, List.mem_singleton, ← heq "likes_received", hget] at hmem'
    cases hmem'

end SocialNetwork.EventService

import SocialNetwork.Lib.Lists
import SocialNetwork.ChatService.DeliveryTheorems

/-!
# Message confidentiality

A message is read by the members of its chat. In a chat of two different users these are the two,
as long as no chat that is not a group has more than two members; the lookup for a message from a
user to itself, however, takes any chat of that user. `Discreet` is the condition under which no
message ends up in such a chat.
-/

namespace SocialNetwork.ChatService

open Text (ByteString)
open Userver (Json)

/-! ## What is read -/

/-- What a `GET` reads are the messages of the chats of its user. -/
theorem respond_get_ok {request : Request} {user_id : Int} (hget : request.get? = some user_id)
    {db : Db} {ω : Choice} {response : Response} (h : respond ω request db = .ok response) :
    ω.rows.Perm (db.selectMessages user_id) ∧
      response = ⟨.kOk, arrayBody (ω.rows.map item)⟩ := by
  rw [respond_get_eq hget] at h
  split_ifs at h with hω hfits
  exact ⟨hω.1, (Except.ok.inj h).symm⟩

/-- Who reads a message is a member of its chat. -/
theorem isMember_of_read {request : Request} {user_id : Int}
    (hget : request.get? = some user_id) {db : Db} {ω : Choice} {vs : List Json}
    (h : respond ω request db = .ok ⟨.kOk, .arr vs⟩) {m : Message} (hm : m ∈ db.messages.rows)
    (hread : ∃ v ∈ vs, field? v "id" = some (.int m.id)) :
    db.isMember m.chat_id user_id = true := by
  obtain ⟨hperm, hresponse⟩ := respond_get_ok hget h
  obtain ⟨v, hv, hid⟩ := hread
  have hbody : Json.arr vs = arrayBody (ω.rows.map item) :=
    congrArg Response.body hresponse
  unfold arrayBody at hbody
  split_ifs at hbody with hnil
  have hvs : vs = ω.rows.map item := Json.arr.inj hbody
  rw [hvs] at hv
  obtain ⟨m', hm', rfl⟩ := List.mem_map.mp hv
  rw [field_item_id, Option.some.injEq, Json.int.injEq] at hid
  have hselect := Db.mem_selectMessages.mp (hperm.mem_iff.mp hm')
  have hsame : m' = m := db.messages.eq_of_key hselect.1 hm hid
  rw [← hsame]
  exact hselect.2

/-! ## The members of a chat -/

/-- Every chat that is not a group has at most two members. -/
def SmallChats (db : Db) : Prop :=
  ∀ c ∈ db.chats.rows, c.is_group = false → (db.members c.id).length ≤ 2

/-- The chat has no members besides the users of the message. -/
def Between (db : Db) (p : Post) (chat_id : Int) : Prop :=
  ∀ u ∈ db.members chat_id, u = p.from_ ∨ u = p.to_

theorem members_congr {db db' : Db} (h : db'.chat_members.rows = db.chat_members.rows) (x : Int) :
    db'.members x = db.members x := by
  rw [Db.members, Db.members, h]

theorem members_join {db db' : Db} {x a b : Int}
    (h : db'.chat_members.rows = db.chat_members.rows ++ [⟨x, a⟩, ⟨x, b⟩]) :
    db'.members x = db.members x ++ [a, b] ∧ ∀ y, y ≠ x → db'.members y = db.members y := by
  refine ⟨?_, fun y hy => ?_⟩
  · rw [Db.members, h, List.filter_append, List.map_append]
    simp [Db.members]
  · rw [Db.members, h, List.filter_append, List.map_append]
    simp [Db.members, Ne.symm hy]

/-- A chat that waits for its members has none. -/
theorem Owns.members_eq_nil {s : State} (ho : Owns s) {x : Int} (hx : x ∈ owned s.tasks) :
    s.shared.db.members x = [] := by
  rw [List.eq_nil_iff_forall_not_mem]
  intro u hu
  have hm := ho.empty x hx u
  rw [Db.mem_members.mp hu] at hm
  cases hm

theorem mem_owned {s : State} {t : Task} (ht : t ∈ s.tasks) {x a b : Int}
    (hc : t.prog.head? = some (.insertMembers x a b)) : x ∈ owned s.tasks :=
  List.mem_filterMap.mpr ⟨t, ht, ownedBy_of_head hc⟩

/-- What a statement adds to the members of chats: the two users of its request, to the chat the
request has created. -/
theorem Effect.members {s : State} (ho : Owns s) {t : Task} (ht : t ∈ s.tasks) {c : SqlCall}
    (hc : t.prog.head? = some c) {o : Outcome} {w : World} {g g' : Phase}
    (he : Effect t.label s.shared c o g w g') (x : Int) :
    w.db.members x = s.shared.db.members x ∨
      (s.shared.db.members x = [] ∧ ∃ p, t.label.post? = some p ∧
        w.db.members x = [p.from_, p.to_]) := by
  cases he with
  | create _ _ _ hmembers _ _ _ _ => exact .inl (members_congr hmembers x)
  | store _ _ hmembers _ _ _ _ => exact .inl (members_congr hmembers x)
  | fail hrows _ _ => exact .inl (members_congr hrows.chat_members x)
  | @join p _ chat_id _ _ hp _ _ hmembers _ _ _ _ =>
    have hjoin := members_join hmembers
    by_cases hx : x = chat_id
    · have hnil : s.shared.db.members chat_id = [] := ho.members_eq_nil (mem_owned ht hc)
      rw [hx]
      right
      exact ⟨hnil, p, hp, by rw [hjoin.1, hnil, List.nil_append]⟩
    · exact .inl (hjoin.2 x hx)
  | _ => exact .inl rfl

/-- A chat that has members gets no other ones. -/
theorem Effect.members_eq {s : State} (ho : Owns s) {t : Task} (ht : t ∈ s.tasks) {c : SqlCall}
    (hc : t.prog.head? = some c) {o : Outcome} {w : World} {g g' : Phase}
    (he : Effect t.label s.shared c o g w g') {x u : Int}
    (hu : s.shared.db.isMember x u = true) : w.db.members x = s.shared.db.members x := by
  have hmem := Db.mem_members.mpr hu
  rcases he.members ho ht hc x with heq | ⟨hnil, -⟩
  · exact heq
  · rw [hnil] at hmem
    cases hmem

/-- The chats a statement adds are new. -/
theorem Effect.mem_chats {r : Request} {w w' : World} {c : SqlCall} {o : Outcome} {g g' : Phase}
    (h : Effect r w c o g w' g') {ch : Chat} (hch : ch ∈ w'.db.chats.rows) :
    ch ∈ w.db.chats.rows ∨ (ch.id ∉ w.db.chats.rows.map Chat.id ∧
      w'.db.chat_members.rows = w.db.chat_members.rows) := by
  cases h with
  | create _ hnew hchats hmembers _ _ _ _ =>
    rw [hchats] at hch
    rcases List.mem_append.mp hch with hold | hadd
    · exact .inl hold
    · rw [List.mem_singleton.mp hadd]
      exact .inr ⟨hnew, hmembers⟩
  | join _ _ hchats _ _ _ _ _ => exact .inl (hchats ▸ hch)
  | store _ hchats _ _ _ _ _ => exact .inl (hchats ▸ hch)
  | fail hrows _ _ => exact .inl (hrows.chats ▸ hch)
  | _ => exact .inl hch

/-- No chat gets more than two members. -/
theorem SmallChats.effect {s : State} (h : SmallChats s.shared.db) (ho : Owns s) {t : Task}
    (ht : t ∈ s.tasks) {c : SqlCall} (hc : t.prog.head? = some c) {o : Outcome} {w : World}
    {g g' : Phase} (he : Effect t.label s.shared c o g w g') : SmallChats w.db := by
  intro ch hch hgroup
  rcases he.mem_chats hch with hold | ⟨hnew, hmembers⟩
  · rcases he.members ho ht hc ch.id with heq | ⟨-, p, -, heq⟩
    · rw [heq]
      exact h ch hold hgroup
    · rw [heq]
      show 2 ≤ 2
      omega
  · have hnil : s.shared.db.members ch.id = [] := by
      rw [List.eq_nil_iff_forall_not_mem]
      intro u hu
      have hm := isMember_of_notMem hnew u
      rw [Db.mem_members.mp hu] at hm
      cases hm
    rw [members_congr hmembers, hnil]
    exact Nat.zero_le 2

/-! ## The invariant -/

/-- The chat a request is about to store its message in. -/
def heldBy (t : Task) : Option Int :=
  match t.prog.head? with
  | some (.insertMessage chat_id _ _) => some chat_id
  | _ => none

theorem heldBy_of_head {t : Task} {x a : Int} {text : ByteString}
    (h : t.prog.head? = some (.insertMessage x a text)) : heldBy t = some x := by
  rw [heldBy, h]

theorem phase_of_held {t : Task} {g : Phase} {x : Int}
    (hp : t.prog.Obeys (monitor t.label) (Ended t.label) g) (hx : heldBy t = some x) :
    g = .ready x := by
  unfold heldBy at hx
  split at hx
  · next hc =>
    cases hx
    exact (hp.head_ok hc).1
  · cases hx

/-- The lookup for a message from a user to itself returns no chat with another member. -/
def LookupDiscreet (db : Db) (ω : Choice) : SqlCall → Prop
  | .selectChat from_ to_ => from_ = to_ → ∀ chat_id ∈ (db.selectChat from_ to_)[ω.pick]?,
      ∀ u ∈ db.members chat_id, u = from_
  | _ => True

/-- Lookups are discreet. -/
def Discreet (s : State) : Action → Prop
  | .call i (.ok ω) => ∀ t ∈ s.tasks[i]?, ∀ c ∈ t.prog.head?, LookupDiscreet s.shared.db ω c
  | _ => True

instance (db : Db) (ω : Choice) : (c : SqlCall) → Decidable (LookupDiscreet db ω c)
  | .selectChat from_ to_ =>
    inferInstanceAs (Decidable (from_ = to_ → ∀ chat_id ∈ (db.selectChat from_ to_)[ω.pick]?,
      ∀ u ∈ db.members chat_id, u = from_))
  | .insertChat _ | .insertMembers _ _ _ | .insertMessage _ _ _ | .selectMessages _ => isTrue trivial

instance (s : State) : (a : Action) → Decidable (Discreet s a)
  | .call i (.ok ω) =>
    inferInstanceAs (Decidable (∀ t ∈ s.tasks[i]?, ∀ c ∈ t.prog.head?,
      LookupDiscreet s.shared.db ω c))
  | .call _ (.raises _ _) | .request _ | .finish _ | .abort _ => isTrue trivial

/-- Messages are in chats of their two users, or about to be stored in one. -/
structure Private (s : State) : Prop where
  small : SmallChats s.shared.db
  running : ∀ t ∈ s.tasks, ∀ x, heldBy t = some x → ∀ p, t.label.post? = some p →
    Between s.shared.db p x
  stored : ∀ e ∈ s.shared.stored, Between s.shared.db e.post e.row.chat_id

theorem private_init {db : Db} (h : SmallChats db) : Private (State.init db) where
  small := h
  running _ ht := by cases ht
  stored _ he := by cases he

/-- Requests leave. -/
theorem Private.leave {s s' : State} (hp : Private s) (hdb : s'.shared.db = s.shared.db)
    (hstored : s'.shared.stored = s.shared.stored) (htasks : ∀ t ∈ s'.tasks, t ∈ s.tasks) :
    Private s' := by
  refine ⟨?_, ?_, ?_⟩
  · rw [hdb]
    exact hp.small
  · rw [hdb]
    exact fun t ht => hp.running t (htasks t ht)
  · rw [hdb, hstored]
    exact hp.stored

/-- The chat a statement makes ready for its request is a chat of its two users. -/
theorem Private.ready {s : State} (hp : Private s) (ho : Owns s) {i : Nat} {o : Outcome}
    (ha : Discreet s (.call i o)) {t : Task} (hi : s.tasks[i]? = some t) {c : SqlCall}
    (hc : t.prog.head? = some c) {w : World} {g : Phase} {x : Int}
    (he : Effect t.label s.shared c o g w (.ready x)) {p : Post} (hpost : t.label.post? = some p) :
    Between w.db p x := by
  have ht : t ∈ s.tasks := List.mem_of_getElem? hi
  intro u hu
  cases he with
  | @found q ω _ hq hfound =>
    have hqp : q = p := post_unique hq hpost
    rw [hqp] at hfound hc
    have hselect := Db.mem_selectChat.mp (List.mem_of_getElem? hfound)
    obtain ⟨⟨ch, hch, hid, hgroup⟩, hfrom, hto⟩ := hselect
    by_cases hself : p.from_ = p.to_
    · -- a message of a user to itself
      have hdiscreet : LookupDiscreet s.shared.db ω (.selectChat p.from_ p.to_) := ha t hi _ hc
      exact .inl (hdiscreet hself x hfound u hu)
    · have hsmall : (s.shared.db.members x).length ≤ 2 := hid ▸ hp.small ch hch hgroup
      exact Lists.eq_or_eq_of_length_le_two hsmall (Db.mem_members.mpr hfrom)
        (Db.mem_members.mpr hto) hself hu
  | @join q _ chat_id _ _ hq _ _ hmembers _ _ _ hg =>
    have hqp : q = p := post_unique hq hpost
    have hx : chat_id = x := by
      rcases hg with hg | hg
      · exact (Phase.ready.inj hg).symm
      · cases hg
    subst hx
    rw [hqp] at hmembers
    have hnil : s.shared.db.members chat_id = [] := ho.members_eq_nil (mem_owned ht hc)
    rw [(members_join hmembers).1, hnil] at hu
    simpa using hu
  | create _ _ _ _ _ _ _ hg => rcases hg with hg | hg <;> cases hg
  | store _ _ _ _ _ _ hg => rcases hg with hg | hg <;> cases hg

/-- The invariant is kept by the statements of discreet runs. -/
theorem Private.call {s : State} (hp : Private s) (hb : Base s) (ho : Owns s) {i : Nat}
    {o : Outcome} (ha : Discreet s (.call i o)) {l₁ l₂ : List Task} {t : Task} {c : SqlCall}
    {w : World} {p : Cpp Response} (hi : s.tasks[i]? = some t) (hs : s.tasks = l₁ ++ t :: l₂)
    (hc : t.prog.head? = some c) {g g' : Phase}
    (hg : t.prog.Obeys (monitor t.label) (Ended t.label) g)
    (he : Effect t.label s.shared c o g w g')
    (hp' : p.Obeys (monitor t.label) (Ended t.label) g') :
    Private ⟨w, l₁ ++ { t with prog := p } :: l₂⟩ := by
  have ht : t ∈ s.tasks := List.mem_of_getElem? hi
  -- chats with members stay as they are
  have hframe : ∀ {q : Post} {x : Int}, s.shared.db.isMember x q.from_ = true →
      Between s.shared.db q x → Between w.db q x := by
    intro q x hmember hbetween u hu
    rw [he.members_eq ho ht hc hmember] at hu
    exact hbetween u hu
  have hold : ∀ u ∈ s.tasks, ∀ x, heldBy u = some x → ∀ q, u.label.post? = some q →
      Between w.db q x := by
    intro u hu x hx q hq
    obtain ⟨gu, hgu, hholds⟩ := hb.running u hu
    rw [phase_of_held hgu hx] at hholds
    exact hframe (hholds q hq).1 (hp.running u hu x hx q hq)
  have hstored : ∀ e ∈ s.shared.stored, Between w.db e.post e.row.chat_id := by
    intro e hmem
    exact hframe (hb.stored e hmem).2.2.1 (hp.stored e hmem)
  refine ⟨hp.small.effect ho ht hc he, fun u hu x hx q hq => ?_, fun e hmem => ?_⟩
  · rcases List.mem_append.mp hu with hu | hu
    · exact hold u (by rw [hs]; exact List.mem_append_left _ hu) x hx q hq
    · rcases List.mem_cons.mp hu with rfl | hu
      · have hready : g' = .ready x := phase_of_held hp' hx
        rw [hready] at he
        exact hp.ready ho ha hi hc he hq
      · exact hold u (by rw [hs]; exact List.mem_append_right _ (List.mem_cons_of_mem _ hu)) x hx
          q hq
  · cases he with
    | @store q _ chat_id id now _ _ hq _ hmembers _ hst _ _ =>
      rw [hst] at hmem
      rcases List.mem_append.mp hmem with hmem | hmem
      · exact hstored e hmem
      · rw [List.mem_singleton.mp hmem]
        exact hold t ht chat_id (heldBy_of_head hc) q hq
    | create _ _ _ _ _ hst _ _ => exact hstored e (hst ▸ hmem)
    | join _ _ _ _ _ hst _ _ => exact hstored e (hst ▸ hmem)
    | fail _ hst _ => exact hstored e (hst ▸ hmem)
    | _ => exact hstored e hmem

/-- The invariant is kept by every step of a discreet run. -/
theorem Private.step {s s' : State} {a : Action} (hp : Private s) (hb : Base s) (ho : Owns s)
    (ha : Discreet s a) (h : step s a = some s') : Private s' := by
  cases move_of_step h with
  | request r =>
    refine ⟨hp.small, fun t ht x hx => ?_, hp.stored⟩
    rcases List.mem_append.mp ht with ht | ht
    · exact hp.running t ht x hx
    · rw [List.mem_singleton.mp ht] at hx
      have hphase := phase_of_held (handle_obeys r) hx
      cases hphase
  | call hi hs hc hcall =>
    obtain ⟨g, hg, -⟩ := hb.running _ (List.mem_of_getElem? hi)
    obtain ⟨g', he, hp'⟩ := hcall g hg
    exact hp.call hb ho ha hi hs hc hg he hp'
  | answer hs _ =>
    refine hp.leave rfl rfl fun u hu => ?_
    rw [hs]
    simp only [List.mem_append, List.mem_cons] at hu ⊢
    tauto
  | leave hs =>
    refine hp.leave rfl rfl fun u hu => ?_
    rw [hs]
    simp only [List.mem_append, List.mem_cons] at hu ⊢
    tauto

theorem private_exec {db : Db} (hsmall : SmallChats db) {as : List Action} {s : State}
    (hm : Runs.Meets ChatService.step Discreet (State.init db) as)
    (hrun : Runs.exec ChatService.step (State.init db) as = some s) : Base s ∧ Private s := by
  have hinv := Runs.exec_invariant (I := fun s => (Base s ∧ Owns s) ∧ Private s)
    (fun _ _ _ hI ha h => ⟨⟨hI.1.1.step h, hI.1.2.step hI.1.1 h⟩, hI.2.step hI.1.1 hI.1.2 ha h⟩)
    ⟨⟨base_init db, owns_init db⟩, private_init hsmall⟩ hm hrun
  exact ⟨hinv.1.1, hinv.2⟩

/-- **Message confidentiality.** In a discreet run, a `GET` that returns a stored message, answered
with 201 or not, is a `GET` for its sender or its receiver. -/
theorem message_confidential {db : Db} (hsmall : SmallChats db) {as : List Action} {s : State}
    (hm : Runs.Meets step Discreet (State.init db) as)
    (hrun : Runs.exec step (State.init db) as = some s) {get : Request} {user_id : Int}
    (hget : get.get? = some user_id) {ω : Choice} {vs : List Json}
    (hread : respond ω get s.shared.db = .ok ⟨.kOk, .arr vs⟩) :
    (∀ e ∈ s.shared.stored, (∃ v ∈ vs, field? v "id" = some (.int e.row.id)) →
      user_id = e.post.from_ ∨ user_id = e.post.to_) ∧
    ∀ x ∈ s.shared.answered, x.2.status = .kCreated → ∀ p, x.1.post? = some p →
      (∃ v ∈ vs, field? v "id" = field? x.2.body "id") →
        user_id = p.from_ ∨ user_id = p.to_ := by
  obtain ⟨hb, hp⟩ := private_exec hsmall hm hrun
  have hstored : ∀ e ∈ s.shared.stored, (∃ v ∈ vs, field? v "id" = some (.int e.row.id)) →
      user_id = e.post.from_ ∨ user_id = e.post.to_ := by
    intro e he hv
    have hmember := isMember_of_read hget hread (hb.stored e he).1 hv
    exact hp.stored e he user_id (Db.mem_members.mpr hmember)
  refine ⟨hstored, fun x hx hst p hpost hv => ?_⟩
  obtain ⟨e, he, hpe, hresponse⟩ := hb.answered x hx hst
  have hsame : e.post = p := post_unique hpe hpost
  rw [hresponse] at hv
  rw [← hsame]
  exact hstored e he hv

theorem smallChats_withUsers (users : List Int) : SmallChats (Db.withUsers users) := by
  intro c hc
  cases hc

/-- A `GET` of rows that are there, newest first, with ids that fit. -/
theorem respond_get_rows {request : Request} {user_id : Int} (hget : request.get? = some user_id)
    {db : Db} {rows : List Message} (hperm : rows.Perm (db.selectMessages user_id))
    (hnewest : Db.newestFirst rows) (hfits : ∀ m ∈ rows, fits m) (hne : rows ≠ []) :
    respond ⟨0, 0, rows⟩ request db = .ok ⟨.kOk, .arr (rows.map item)⟩ := by
  rw [respond_get_eq hget, if_pos ⟨hperm, hnewest⟩, if_pos hfits, arrayBody,
    if_neg fun hnil => hne (List.map_eq_nil_iff.mp hnil)]

theorem message_confidential_first :
    ∃ s, Runs.exec step (State.init (Db.withUsers [1, 2])) firstMessageRun = some s ∧
      ∃ vs, respond ⟨0, 0, [⟨1, 1, 1, "hello", 0⟩]⟩ (getRequest "2") s.shared.db =
          .ok ⟨.kOk, .arr vs⟩ ∧
        ∀ x ∈ s.shared.answered, x.2.status = .kCreated → ∀ p, x.1.post? = some p →
          (∃ v ∈ vs, field? v "id" = field? x.2.body "id") → 2 = p.from_ ∨ 2 = p.to_ := by
  have hselect : (Runs.exec step (State.init (Db.withUsers [1, 2])) firstMessageRun).map (fun s =>
      s.shared.db.selectMessages 2) = some [⟨1, 1, 1, "hello", 0⟩] := by decide
  obtain ⟨s, hs, hrows⟩ := Option.map_eq_some_iff.mp hselect
  have hget : (getRequest "2").get? = some 2 := by decide
  have hm : Runs.Meets step Discreet (State.init (Db.withUsers [1, 2])) firstMessageRun := by
    decide
  have hread : respond ⟨0, 0, [⟨1, 1, 1, "hello", 0⟩]⟩ (getRequest "2") s.shared.db =
      .ok ⟨.kOk, .arr [item ⟨1, 1, 1, "hello", 0⟩]⟩ :=
    respond_get_rows hget (List.Perm.of_eq hrows.symm) (by decide) (by decide)
      (List.cons_ne_nil _ _)
  exact ⟨s, hs, _, hread, (message_confidential (smallChats_withUsers _) hm hs hget hread).2⟩

/-- After the first message of two users one of them sends a message to itself. -/
def selfMessageRun : List Action :=
  firstMessageRun ++ [.request (postRequest 1 1 "diary"), .call 0 (.ok ⟨0, 0, []⟩),
    .call 0 (.ok ⟨0, 1, []⟩), .finish 0]

/-- The message is stored in the chat with the other user, who reads it. -/
theorem selfMessageRun_discloses :
    SmallChats (Db.withUsers [1, 2]) ∧
      ∃ s, Runs.exec step (State.init (Db.withUsers [1, 2])) selfMessageRun = some s ∧
        (postRequest 1 1 "diary", created 2 1 1 "diary") ∈ s.shared.answered ∧
        ∃ vs, respond ⟨0, 0, [⟨2, 1, 1, "diary", 1⟩, ⟨1, 1, 1, "hello", 0⟩]⟩ (getRequest "2")
            s.shared.db = .ok ⟨.kOk, .arr vs⟩ ∧ (created 2 1 1 "diary").body ∈ vs := by
  have hanswered : (Runs.exec step (State.init (Db.withUsers [1, 2])) selfMessageRun).bind (fun s =>
      s.shared.answered[1]?) = some (postRequest 1 1 "diary", created 2 1 1 "diary") := by rfl
  have hselect : (Runs.exec step (State.init (Db.withUsers [1, 2])) selfMessageRun).map (fun s =>
      s.shared.db.selectMessages 2) =
        some [⟨1, 1, 1, "hello", 0⟩, ⟨2, 1, 1, "diary", 1⟩] := by decide
  obtain ⟨s, hs, hrows⟩ := Option.map_eq_some_iff.mp hselect
  rw [hs] at hanswered
  have hget : (getRequest "2").get? = some 2 := by decide
  have hread : respond ⟨0, 0, [⟨2, 1, 1, "diary", 1⟩, ⟨1, 1, 1, "hello", 0⟩]⟩ (getRequest "2")
      s.shared.db =
      .ok ⟨.kOk, .arr [item ⟨2, 1, 1, "diary", 1⟩, item ⟨1, 1, 1, "hello", 0⟩]⟩ :=
    respond_get_rows hget ((List.Perm.swap _ _ []).trans (List.Perm.of_eq hrows.symm)) (by decide)
      (by decide) (List.cons_ne_nil _ _)
  exact ⟨smallChats_withUsers _, s, hs, List.mem_of_getElem? hanswered, _, hread,
    List.mem_cons_self ..⟩

end SocialNetwork.ChatService

import SocialNetwork.ChatService.Service

/-!
# The base invariant of the chat service

`move_of_step` is the inversion lemma of the system. `Base` ties the chat a request holds to
the members the database has committed: whoever is about to store a message in a chat finds
both of its users among the members. `Owns` is about chats that have been created and have no
members yet: only the request that created such a chat knows it.
-/

namespace SocialNetwork.ChatService


/-! ## What a step does -/

/-- The steps of the system, with the requests in flight seen through their protocol. -/
inductive Move (s : State) : Action → State → Prop
  | request (r : Request) :
    Move s (.request r) ⟨s.shared, s.tasks ++ [⟨r, HandleRequestThrow r, ()⟩]⟩
  | call {i : Nat} {o : Outcome} {l₁ l₂ : List Task} {t : Task} {c : SqlCall} {w : World}
    {p : Cpp Response} (hi : s.tasks[i]? = some t) (hs : s.tasks = l₁ ++ t :: l₂)
    (hc : t.prog.head? = some c)
    (he : ∀ g, t.prog.Obeys (monitor t.label) (Ended t.label) g →
      ∃ g', Effect t.label s.shared c o g w g' ∧ p.Obeys (monitor t.label) (Ended t.label) g') :
    Move s (.call i o) ⟨w, l₁ ++ { t with prog := p } :: l₂⟩
  | answer {i : Nat} {l₁ l₂ : List Task} {t : Task} {response : Response}
    (hs : s.tasks = l₁ ++ t :: l₂) (hret : t.prog = .ret response) :
    Move s (.finish i)
      ⟨{ s.shared with answered := s.shared.answered ++ [(t.label, response)] }, l₁ ++ l₂⟩
  | leave {a : Action} {l₁ l₂ : List Task} {t : Task} (hs : s.tasks = l₁ ++ t :: l₂) :
    Move s a ⟨s.shared, l₁ ++ l₂⟩

/-- **Inversion.** A step is one of the moves. -/
theorem move_of_step {s s' : State} {a : Action} (h : step s a = some s') : Move s a s' := by
  cases a with
  | request r =>
    cases h
    exact .request r
  | call i o =>
    obtain ⟨w', ts'⟩ := s'
    -- statements are atomic: none is left half done
    obtain ⟨l₁, t, l₂, c, k, r, hi, hs, hp, he, hs'⟩ := Pool.advance_atomic h
    dsimp only at hs'
    rw [hs']
    refine .call hi hs (by rw [hp]; rfl) fun g hg => ?_
    rw [hp, Prog.obeys_call] at hg
    exact ⟨Phase.after c r, effect_of_allows hg.1 he, hg.2 r⟩
  | finish i =>
    simp only [step] at h
    split at h
    · cases h
    · next r response s₁ hr =>
      cases h
      obtain ⟨l₁, t, l₂, -, hs, hl, ho, rfl⟩ := Pool.retire_eq_some hr
      have hret : t.prog = .ret response := by
        cases hp : t.prog with
        | ret x =>
          rw [hp] at ho
          cases ho
          rfl
        | raise e =>
          rw [hp] at ho
          cases ho
        | call c k =>
          rw [hp] at ho
          cases ho
      rw [← hl]
      exact .answer hs hret
    · next r e s₁ hr =>
      cases h
      obtain ⟨l₁, t, l₂, -, hs, -, -, rfl⟩ := Pool.retire_eq_some hr
      exact .leave hs
  | abort i =>
    simp only [step] at h
    split_ifs at h with hi
    cases h
    obtain ⟨l₁, l₂, hs, her, -⟩ := Pool.split_getElem? (List.getElem?_eq_getElem hi)
    rw [her]
    exact .leave hs

/-! ## Rows are only added -/

/-- The later database and histories extend the earlier ones. -/
structure Grows (w w' : World) : Prop where
  members : w.db.chat_members.rows <+: w'.db.chat_members.rows
  messages : w.db.messages.rows <+: w'.db.messages.rows
  stored : w.stored <+: w'.stored

theorem Grows.refl (w : World) : Grows w w :=
  ⟨List.prefix_rfl, List.prefix_rfl, List.prefix_rfl⟩

theorem Grows.isMember {w w' : World} (h : Grows w w') {chat_id user_id : Int}
    (hm : w.db.isMember chat_id user_id = true) : w'.db.isMember chat_id user_id = true :=
  Db.isMember_iff.mpr (h.members.subset (Db.isMember_iff.mp hm))

theorem Effect.grows {r : Request} {w w' : World} {c : SqlCall} {o : Outcome} {g g' : Phase}
    (h : Effect r w c o g w' g') : Grows w w' := by
  cases h with
  | notFound _ _ => exact Grows.refl _
  | found _ _ => exact Grows.refl _
  | read => exact Grows.refl _
  | create _ _ _ hmembers hmessages hstored _ _ =>
    exact ⟨hmembers ▸ List.prefix_rfl, hmessages ▸ List.prefix_rfl, hstored ▸ List.prefix_rfl⟩
  | join _ _ _ hmembers hmessages hstored _ _ =>
    exact ⟨hmembers ▸ List.prefix_append _ _, hmessages ▸ List.prefix_rfl,
      hstored ▸ List.prefix_rfl⟩
  | store _ _ hmembers hmessages hstored _ _ =>
    exact ⟨hmembers ▸ List.prefix_rfl, hmessages ▸ List.prefix_append _ _,
      hstored ▸ List.prefix_append _ _⟩
  | fail hrows hstored _ =>
    exact ⟨hrows.chat_members ▸ List.prefix_rfl, hrows.messages ▸ List.prefix_rfl,
      hstored ▸ List.prefix_rfl⟩

theorem Effect.answered_eq {r : Request} {w w' : World} {c : SqlCall} {o : Outcome}
    {g g' : Phase} (h : Effect r w c o g w' g') : w'.answered = w.answered := by
  cases h with
  | create _ _ _ _ _ _ hanswered _ => exact hanswered
  | join _ _ _ _ _ _ hanswered _ => exact hanswered
  | store _ _ _ _ _ hanswered _ => exact hanswered
  | fail _ _ hanswered => exact hanswered
  | _ => rfl

/-! ## The base invariant -/

/-- Both users of a message are members of the chat. -/
def BothMembers (db : Db) (p : Post) (chat_id : Int) : Prop :=
  db.isMember chat_id p.from_ = true ∧ db.isMember chat_id p.to_ = true

/-- The row carries the message that was posted. -/
def Stored.Carries (e : Stored) : Prop :=
  e.row.sender_id = e.post.from_ ∧ e.row.content = e.post.text

/-- What a request has achieved in the database when it is in a phase. -/
def Holds (w : World) (r : Request) : Phase → Prop
  | .ready chat_id => ∀ p, r.post? = some p → BothMembers w.db p chat_id
  | .stored chat_id message_id => ∀ p, r.post? = some p → ∃ row, (⟨p, row⟩ : Stored) ∈ w.stored ∧
      row.id = message_id ∧ row.chat_id = chat_id
  | _ => True

/-- What holds in every reachable state. -/
structure Base (s : State) : Prop where
  running : ∀ t ∈ s.tasks, ∃ g, t.prog.Obeys (monitor t.label) (Ended t.label) g ∧
    Holds s.shared t.label g
  stored : ∀ e ∈ s.shared.stored, e.row ∈ s.shared.db.messages.rows ∧ e.Carries ∧
    BothMembers s.shared.db e.post e.row.chat_id
  answered : ∀ x ∈ s.shared.answered, x.2.status = .kCreated → ∃ e ∈ s.shared.stored,
    x.1.post? = some e.post ∧ x.2 = created e.row.id e.row.chat_id e.post.from_ e.post.text

theorem base_init (db : Db) : Base (State.init db) where
  running _ ht := by cases ht
  stored _ he := by cases he
  answered _ hx := by cases hx

theorem BothMembers.mono {w w' : World} (h : Grows w w') {p : Post} {chat_id : Int}
    (hm : BothMembers w.db p chat_id) : BothMembers w'.db p chat_id :=
  ⟨h.isMember hm.1, h.isMember hm.2⟩

theorem Holds.mono {w w' : World} (h : Grows w w') {r : Request} {g : Phase} (hg : Holds w r g) :
    Holds w' r g := by
  cases g with
  | ready chat_id => exact fun p hp => (hg p hp).mono h
  | stored chat_id message_id =>
    intro p hp
    obtain ⟨row, hrow, hid⟩ := hg p hp
    exact ⟨row, h.stored.subset hrow, hid⟩
  | _ => trivial

theorem post_unique {r : Request} {p q : Post} (hp : r.post? = some p) (hq : r.post? = some q) :
    p = q := Option.some.inj (hp.symm.trans hq)

/-- What a statement achieves for its request. -/
theorem Effect.holds {r : Request} {w w' : World} {c : SqlCall} {o : Outcome} {g g' : Phase}
    (h : Effect r w c o g w' g') : Holds w' r g' := by
  cases h with
  | found hp hfound =>
    intro q hq
    rw [post_unique hq hp]
    exact (Db.mem_selectChat.mp (List.mem_of_getElem? hfound)).2
  | create _ _ _ _ _ _ _ hg => rcases hg with rfl | rfl <;> trivial
  | @join p _ chat_id _ _ hp _ _ hmembers _ _ _ hg =>
    rcases hg with rfl | rfl
    · intro q hq
      rw [post_unique hq hp]
      refine ⟨Db.isMember_iff.mpr ?_, Db.isMember_iff.mpr ?_⟩ <;> rw [hmembers] <;> simp
    · trivial
  | @store p _ chat_id id now _ _ hp _ _ _ hstored _ hg =>
    rcases hg with rfl | rfl
    · intro q hq
      rw [post_unique hq hp, hstored]
      exact ⟨_, List.mem_append_right _ (List.mem_singleton_self _), rfl, rfl⟩
    · trivial
  | notFound _ _ => trivial
  | read => trivial
  | fail _ _ _ => trivial

/-- What a statement stores is in a chat of both users, if its request is in one. -/
theorem Effect.stored_new {r : Request} {w w' : World} {c : SqlCall} {o : Outcome} {g g' : Phase}
    (h : Effect r w c o g w' g') (hg : Holds w r g) {e : Stored} (he : e ∈ w'.stored) :
    e ∈ w.stored ∨ (e.row ∈ w'.db.messages.rows ∧ e.Carries ∧
      BothMembers w.db e.post e.row.chat_id) := by
  cases h with
  | create _ _ _ _ _ hstored _ _ => exact .inl (hstored ▸ he)
  | join _ _ _ _ _ hstored _ _ => exact .inl (hstored ▸ he)
  | fail _ hstored _ => exact .inl (hstored ▸ he)
  | store hp _ _ hmessages hstored _ _ =>
    rw [hstored] at he
    rcases List.mem_append.mp he with he | he
    · exact .inl he
    · rw [List.mem_singleton.mp he, hmessages]
      exact .inr ⟨List.mem_append_right _ (List.mem_singleton_self _), ⟨rfl, rfl⟩, hg _ hp⟩
  | _ => exact .inl he

/-- The base invariant is kept by every step. -/
theorem Base.step {s s' : State} {a : Action} (hb : Base s) (h : step s a = some s') :
    Base s' := by
  cases move_of_step h with
  | request r =>
    refine ⟨fun t ht => ?_, hb.stored, hb.answered⟩
    rcases List.mem_append.mp ht with ht | ht
    · exact hb.running t ht
    · rw [List.mem_singleton.mp ht]
      exact ⟨.start, handle_obeys r, trivial⟩
  | @call i o l₁ l₂ t c w p hi hs hc hcall =>
    obtain ⟨g, hg, hholds⟩ := hb.running t (List.mem_of_getElem? hi)
    obtain ⟨g', he, hp⟩ := hcall g hg
    have hgrows := he.grows
    refine ⟨fun u hu => ?_, fun e hmem => ?_, fun x hx hst => ?_⟩
    · have hold : ∀ u ∈ s.tasks, ∃ g, u.prog.Obeys (monitor u.label) (Ended u.label) g ∧
          Holds w u.label g := by
        intro u hu
        obtain ⟨gu, hgu, hhold⟩ := hb.running u hu
        exact ⟨gu, hgu, hhold.mono hgrows⟩
      rcases List.mem_append.mp hu with hu | hu
      · exact hold u (by rw [hs]; exact List.mem_append_left _ hu)
      · rcases List.mem_cons.mp hu with rfl | hu
        · exact ⟨g', hp, he.holds⟩
        · exact hold u (by rw [hs]; exact List.mem_append_right _ (List.mem_cons_of_mem _ hu))
    · rcases he.stored_new hholds hmem with hold | ⟨hrow, hcarries, hboth⟩
      · obtain ⟨hrow, hcarries, hboth⟩ := hb.stored e hold
        exact ⟨hgrows.messages.subset hrow, hcarries, hboth.mono hgrows⟩
      · exact ⟨hrow, hcarries, hboth.mono hgrows⟩
    · rw [he.answered_eq] at hx
      obtain ⟨e, hmem, hpost, hresp⟩ := hb.answered x hx hst
      exact ⟨e, hgrows.stored.subset hmem, hpost, hresp⟩
  | @answer i l₁ l₂ t response hs hret =>
    have ht : t ∈ s.tasks := by
      rw [hs]
      exact List.mem_append_right _ (List.mem_cons_self ..)
    refine ⟨fun u hu => ?_, hb.stored, fun x hx hst => ?_⟩
    · refine hb.running u ?_
      rw [hs]
      simp only [List.mem_append, List.mem_cons] at hu ⊢
      tauto
    · rcases List.mem_append.mp hx with hx | hx
      · exact hb.answered x hx hst
      · -- what is answered with 201 has been stored
        rw [List.mem_singleton.mp hx] at hst ⊢
        obtain ⟨g, hg, hholds⟩ := hb.running t ht
        rw [hret] at hg
        obtain ⟨p, chat_id, message_id, hp, rfl, hresp⟩ := hg response rfl hst
        obtain ⟨row, hrow, hid, hchat⟩ := hholds p hp
        exact ⟨⟨p, row⟩, hrow, hp, by rw [hid, hchat]; exact hresp⟩
  | @leave _ l₁ l₂ t hs =>
    refine ⟨fun u hu => ?_, hb.stored, hb.answered⟩
    refine hb.running u ?_
    rw [hs]
    simp only [List.mem_append, List.mem_cons] at hu ⊢
    tauto

theorem base_exec {db : Db} {as : List Action} {s : State}
    (hrun : Runs.exec ChatService.step (State.init db) as = some s) : Base s :=
  Runs.exec_preserves (fun _ _ _ hb h => hb.step h) (base_init db) hrun

/-! ## Chats without members -/

/-- The chat a request is about to add the members to. -/
def ownedBy (t : Task) : Option Int :=
  match t.prog.head? with
  | some (.insertMembers chat_id _ _) => some chat_id
  | _ => none

/-- The chats that have been created and wait for their members. -/
def owned (ts : List Task) : List Int := ts.filterMap ownedBy

/-- Nobody else knows a chat that waits for its members, and it has none. -/
structure Owns (s : State) : Prop where
  nodup : (owned s.tasks).Nodup
  created : ∀ x ∈ owned s.tasks, ∃ c ∈ s.shared.db.chats.rows, c.id = x ∧ c.is_group = false
  empty : ∀ x ∈ owned s.tasks, ∀ u, s.shared.db.isMember x u = false

theorem owns_init (db : Db) : Owns (State.init db) where
  nodup := List.nodup_nil
  created _ hx := by cases hx
  empty _ hx := by cases hx

theorem phase_of_owned {t : Task} {g : Phase} {x : Int}
    (hp : t.prog.Obeys (monitor t.label) (Ended t.label) g) (hx : ownedBy t = some x) :
    g = .created x := by
  unfold ownedBy at hx
  split at hx
  · next hc =>
    cases hx
    exact (hp.head_ok hc).1
  · cases hx

theorem ownedBy_of_head {t : Task} {x a b : Int} (h : t.prog.head? = some (.insertMembers x a b)) :
    ownedBy t = some x := by
  rw [ownedBy, h]

theorem owned_split_none {l₁ l₂ : List Task} {t : Task} (h : ownedBy t = none) :
    owned (l₁ ++ t :: l₂) = owned (l₁ ++ l₂) := by
  rw [owned, owned, List.filterMap_append, List.filterMap_append, List.filterMap_cons_none h]

theorem owned_split_some {l₁ l₂ : List Task} {t : Task} {x : Int} (h : ownedBy t = some x) :
    (owned (l₁ ++ t :: l₂)).Perm (x :: owned (l₁ ++ l₂)) := by
  rw [owned, owned, List.filterMap_append, List.filterMap_append, List.filterMap_cons_some h]
  exact List.perm_middle

/-- A user is no member of a chat that does not exist. -/
theorem isMember_of_notMem {db : Db} {x : Int} (hx : x ∉ db.chats.rows.map Chat.id) (u : Int) :
    db.isMember x u = false := by
  rw [Bool.eq_false_iff]
  intro hm
  exact hx (db.member_chat _ (Db.isMember_iff.mp hm))

theorem isMember_congr {db db' : Db} (h : db'.chat_members.rows = db.chat_members.rows)
    (x u : Int) : db'.isMember x u = db.isMember x u := by
  rw [Db.isMember, Db.isMember, h]

/-- Members are added to one chat. -/
theorem isMember_join {db db' : Db} {x a b : Int}
    (h : db'.chat_members.rows = db.chat_members.rows ++ [⟨x, a⟩, ⟨x, b⟩]) (y u : Int) :
    db'.isMember y u = true ↔ db.isMember y u = true ∨ (y = x ∧ (u = a ∨ u = b)) := by
  rw [Db.isMember_iff, Db.isMember_iff, h, List.mem_append]
  simp only [List.mem_cons, ChatMember.mk.injEq, List.not_mem_nil, or_false]
  tauto

/-- Requests leave: fewer chats wait for their members. -/
theorem Owns.leave {s s' : State} (ho : Owns s) (hdb : s'.shared.db = s.shared.db)
    {l₁ l₂ : List Task} {t : Task} (hs : s.tasks = l₁ ++ t :: l₂) (hs' : s'.tasks = l₁ ++ l₂) :
    Owns s' := by
  have hsub : List.Sublist (owned s'.tasks) (owned s.tasks) := by
    rw [hs, hs']
    exact ((List.Sublist.refl l₁).append (List.sublist_cons_self t l₂)).filterMap _
  refine ⟨ho.nodup.sublist hsub, ?_, ?_⟩
  · rw [hdb]
    exact fun x hx => ho.created x (hsub.subset hx)
  · rw [hdb]
    exact fun x hx => ho.empty x (hsub.subset hx)

/-- The ownership of chats is kept by every step. -/
theorem Owns.step {s s' : State} {a : Action} (ho : Owns s) (hb : Base s)
    (h : step s a = some s') : Owns s' := by
  cases move_of_step h with
  | request r =>
    have hnone : ownedBy ⟨r, HandleRequestThrow r, ()⟩ = none := by
      rw [Option.eq_none_iff_forall_ne_some]
      intro x hx
      have hphase := phase_of_owned (handle_obeys r) hx
      cases hphase
    have hsame : owned (s.tasks ++ [⟨r, HandleRequestThrow r, ()⟩]) = owned s.tasks := by
      rw [owned_split_none hnone, List.append_nil]
    refine ⟨?_, ?_, ?_⟩
    · rw [hsame]
      exact ho.nodup
    · rw [hsame]
      exact ho.created
    · rw [hsame]
      exact ho.empty
  | answer hs _ => exact ho.leave rfl hs rfl
  | leave hs => exact ho.leave rfl hs rfl
  | @call i o l₁ l₂ t c w p hi hs hc hcall =>
    obtain ⟨g, hg, -⟩ := hb.running t (List.mem_of_getElem? hi)
    obtain ⟨g', he, hp⟩ := hcall g hg
    have hnew : ∀ x, ownedBy { t with prog := p } = some x → g' = .created x :=
      fun x hx => phase_of_owned hp hx
    have hrest : (owned (l₁ ++ l₂)).Nodup ∧ (∀ x ∈ owned (l₁ ++ l₂), x ∈ owned s.tasks) := by
      have hsub : List.Sublist (owned (l₁ ++ l₂)) (owned s.tasks) := by
        rw [hs]
        exact ((List.Sublist.refl l₁).append (List.sublist_cons_self t l₂)).filterMap _
      exact ⟨ho.nodup.sublist hsub, fun x hx => hsub.subset hx⟩
    -- only a request that has just created a chat comes to own one
    have hkeep : (∀ x, g' ≠ .created x) → (∀ x ∈ owned (l₁ ++ l₂),
        (∃ c ∈ w.db.chats.rows, c.id = x ∧ c.is_group = false) ∧
          ∀ u, w.db.isMember x u = false) → Owns ⟨w, l₁ ++ { t with prog := p } :: l₂⟩ := by
      intro hno hall
      have hnone : ownedBy { t with prog := p } = none := by
        rw [Option.eq_none_iff_forall_ne_some]
        exact fun x hx => hno x (hnew x hx)
      refine ⟨?_, fun x hx => ?_, fun x hx => ?_⟩
      · show (owned (l₁ ++ { t with prog := p } :: l₂)).Nodup
        rw [owned_split_none hnone]
        exact hrest.1
      · rw [show owned (l₁ ++ { t with prog := p } :: l₂) = _ from owned_split_none hnone] at hx
        exact (hall x hx).1
      · rw [show owned (l₁ ++ { t with prog := p } :: l₂) = _ from owned_split_none hnone] at hx
        exact (hall x hx).2
    have hsame : ∀ {w' : World}, w'.db.chats.rows = s.shared.db.chats.rows →
        w'.db.chat_members.rows = s.shared.db.chat_members.rows → ∀ x ∈ owned (l₁ ++ l₂),
          (∃ c ∈ w'.db.chats.rows, c.id = x ∧ c.is_group = false) ∧
            ∀ u, w'.db.isMember x u = false := by
      intro w' hchats hmembers x hx
      refine ⟨?_, fun u => ?_⟩
      · rw [hchats]
        exact ho.created x (hrest.2 x hx)
      · rw [isMember_congr hmembers]
        exact ho.empty x (hrest.2 x hx) u
    cases he with
    | notFound _ _ => exact hkeep (fun _ hx => by cases hx) (hsame rfl rfl)
    | found _ _ => exact hkeep (fun _ hx => by cases hx) (hsame rfl rfl)
    | read => exact hkeep (fun _ hx => by cases hx) (hsame rfl rfl)
    | fail hrows _ _ =>
      exact hkeep (fun _ hx => by cases hx) (hsame hrows.chats hrows.chat_members)
    | store _ hchats hmembers _ _ _ hg' =>
      refine hkeep (fun _ hx => ?_) (hsame hchats hmembers)
      rcases hg' with rfl | rfl <;> cases hx
    | @join q _ chat_id _ _ _ _ hchats hmembers _ _ _ hg' =>
      refine hkeep (fun _ hx => ?_) fun x hx => ⟨?_, fun u => ?_⟩
      · rcases hg' with rfl | rfl <;> cases hx
      · rw [hchats]
        exact ho.created x (hrest.2 x hx)
      · -- the members join the chat of this request, which owns it alone
        have hne : x ≠ chat_id := by
          rintro rfl
          have hnodup := ho.nodup
          rw [hs, (owned_split_some (ownedBy_of_head hc)).nodup_iff, List.nodup_cons] at hnodup
          exact hnodup.1 hx
        rw [Bool.eq_false_iff]
        intro hm
        rcases (isMember_join hmembers x u).mp hm with hold | ⟨heq, -⟩
        · rw [ho.empty x (hrest.2 x hx) u] at hold
          cases hold
        · exact hne heq
    | @create q title _ chat_id _ _ _ hfresh hchats hmembers _ _ _ hg' =>
      have hall : ∀ x ∈ owned (l₁ ++ l₂),
          (∃ c ∈ w.db.chats.rows, c.id = x ∧ c.is_group = false) ∧
            ∀ u, w.db.isMember x u = false := by
        intro x hx
        obtain ⟨c, hcmem, hid, hgroup⟩ := ho.created x (hrest.2 x hx)
        refine ⟨⟨c, ?_, hid, hgroup⟩, fun u => ?_⟩
        · rw [hchats]
          exact List.mem_append_left _ hcmem
        · rw [isMember_congr hmembers]
          exact ho.empty x (hrest.2 x hx) u
      have hnotin : chat_id ∉ owned (l₁ ++ l₂) := by
        intro hmem
        obtain ⟨c, hcmem, hid, -⟩ := ho.created chat_id (hrest.2 chat_id hmem)
        exact hfresh (hid ▸ List.mem_map_of_mem hcmem)
      have hmine : (∃ c ∈ w.db.chats.rows, c.id = chat_id ∧ c.is_group = false) ∧
          ∀ u, w.db.isMember chat_id u = false := by
        refine ⟨⟨⟨chat_id, title, false⟩, ?_, rfl, rfl⟩, fun u => ?_⟩
        · rw [hchats]
          exact List.mem_append_right _ (List.mem_singleton_self _)
        · rw [isMember_congr hmembers]
          exact isMember_of_notMem hfresh u
      rcases hg' with rfl | rfl
      · cases hown : ownedBy { t with prog := p } with
        | none =>
          have heq : owned (l₁ ++ { t with prog := p } :: l₂) = owned (l₁ ++ l₂) :=
            owned_split_none hown
          refine ⟨?_, fun x hx => ?_, fun x hx => ?_⟩
          · show (owned (l₁ ++ { t with prog := p } :: l₂)).Nodup
            rw [heq]
            exact hrest.1
          · exact (hall x (heq ▸ hx)).1
          · exact (hall x (heq ▸ hx)).2
        | some y =>
          have hy : y = chat_id := by
            have hphase := hnew y hown
            cases hphase
            rfl
          subst hy
          have hperm : (owned (l₁ ++ { t with prog := p } :: l₂)).Perm (y :: owned (l₁ ++ l₂)) :=
            owned_split_some hown
          have hin : ∀ x ∈ owned (l₁ ++ { t with prog := p } :: l₂),
              x = y ∨ x ∈ owned (l₁ ++ l₂) :=
            fun x hx => List.mem_cons.mp (hperm.mem_iff.mp hx)
          refine ⟨?_, fun x hx => ?_, fun x hx => ?_⟩
          · exact hperm.nodup_iff.mpr (List.nodup_cons.mpr ⟨hnotin, hrest.1⟩)
          · rcases hin x hx with rfl | hx
            · exact hmine.1
            · exact (hall x hx).1
          · rcases hin x hx with rfl | hx
            · exact hmine.2
            · exact (hall x hx).2
      · exact hkeep (fun _ hx => by cases hx) hall

end SocialNetwork.ChatService

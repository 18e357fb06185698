import SocialNetwork.ChatService.ConfidentialityTheorems

/-!
# One private chat for two users

The handler looks the chat of two users up, creates it and adds its members in three statements.
`Serial` is the condition under which two users keep one chat: none of them looks it up in vain
while another request of theirs is about to create it.
-/

namespace SocialNetwork.ChatService

/-- A chat that is not a group, with both users among its members. -/
def PrivateChat (db : Db) (a b chat_id : Int) : Prop :=
  (∃ c ∈ db.chats.rows, c.id = chat_id ∧ c.is_group = false) ∧
    db.isMember chat_id a = true ∧ db.isMember chat_id b = true

/-- Two different users have at most one private chat. -/
def OneChatPerPair (db : Db) : Prop :=
  ∀ a b, a ≠ b → ∀ x y, PrivateChat db a b x → PrivateChat db a b y → x = y

theorem PrivateChat.symm {db : Db} {a b x : Int} (h : PrivateChat db a b x) :
    PrivateChat db b a x := ⟨h.1, h.2.2, h.2.1⟩

/-- A statement makes a private chat only by adding the members of a chat. -/
theorem Effect.privateChat {s : State} (ho : Owns s) {t : Task} (ht : t ∈ s.tasks) {c : SqlCall}
    (hc : t.prog.head? = some c) {o : Outcome} {w : World} {g g' : Phase}
    (he : Effect t.label s.shared c o g w g') {a b x : Int} (h : PrivateChat w.db a b x) :
    PrivateChat s.shared.db a b x ∨ ∃ p, t.label.post? = some p ∧ p.from_ ≠ p.to_ ∧
      c = .insertMembers x p.from_ p.to_ ∧ (a = p.from_ ∨ a = p.to_) ∧
        (b = p.from_ ∨ b = p.to_) := by
  have hsame : w.db.chats.rows = s.shared.db.chats.rows →
      w.db.chat_members.rows = s.shared.db.chat_members.rows → PrivateChat s.shared.db a b x := by
    intro hchats hmembers
    unfold PrivateChat at h
    rw [hchats, isMember_congr hmembers, isMember_congr hmembers] at h
    exact h
  obtain ⟨⟨ch, hch, hid, hgroup⟩, hmem_a, hmem_b⟩ := h
  cases he with
  | create _ _ hchats hmembers _ _ _ _ =>
    rw [isMember_congr hmembers] at hmem_a hmem_b
    -- whoever is a member now was one before, of a chat that was there
    have hold := s.shared.db.member_chat _ (Db.isMember_iff.mp hmem_a)
    obtain ⟨ch', hch', hid'⟩ := List.mem_map.mp hold
    have hch'' : ch' ∈ w.db.chats.rows := by
      rw [hchats]
      exact List.mem_append_left _ hch'
    have heq : ch' = ch := w.db.chats.eq_of_key hch'' hch (hid'.trans hid.symm)
    exact .inl ⟨⟨ch', hch', hid', heq ▸ hgroup⟩, hmem_a, hmem_b⟩
  | @join p _ chat_id _ _ hp hne hchats hmembers _ _ _ _ =>
    by_cases hx : x = chat_id
    · have hnil : s.shared.db.members chat_id = [] := ho.members_eq_nil (mem_owned ht hc)
      have hnew : ∀ u, w.db.isMember x u = true → u = p.from_ ∨ u = p.to_ := by
        intro u hu
        have hu' := Db.mem_members.mpr hu
        rw [hx, (members_join hmembers).1, hnil] at hu'
        simpa using hu'
      exact .inr ⟨p, hp, hne, by rw [hx], hnew a hmem_a, hnew b hmem_b⟩
    · have hmember : ∀ u, w.db.isMember x u = true → s.shared.db.isMember x u = true := by
        intro u hu
        rcases (isMember_join hmembers x u).mp hu with hold | ⟨heq, -⟩
        · exact hold
        · exact absurd heq hx
      exact .inl ⟨⟨ch, hchats ▸ hch, hid, hgroup⟩, hmember a hmem_a, hmember b hmem_b⟩
  | store _ hchats hmembers _ _ _ _ => exact .inl (hsame hchats hmembers)
  | fail hrows _ _ => exact .inl (hsame hrows.chats hrows.chat_members)
  | _ => exact .inl (hsame rfl rfl)

/-! ## Requests that are about to create a chat -/

/-- The statements that create a chat. -/
def SqlCall.creates : SqlCall → Bool
  | .insertChat _ => true
  | .insertMembers _ _ _ => true
  | _ => false

/-- The two users of a message, in one order. -/
def Post.pair? (p : Post) : Option (Int × Int) :=
  if p.from_ = p.to_ then none else some (min p.from_ p.to_, max p.from_ p.to_)

/-- The two users a request is about to create a chat for. -/
def creating (t : Task) : Option (Int × Int) :=
  if t.prog.head?.any SqlCall.creates then t.label.post?.bind Post.pair? else none

/-- A lookup of two users finds no chat only while no request of the two is about to create
one. -/
def Serial (s : State) : Action → Prop
  | .call i (.ok _) => ∀ t ∈ s.tasks[i]?, ∀ p ∈ t.label.post?,
      t.prog.head? = some (.selectChat p.from_ p.to_) →
        s.shared.db.selectChat p.from_ p.to_ = [] → ∀ pair ∈ p.pair?, ∀ u ∈ s.tasks,
          creating u ≠ some pair
  | _ => True

instance (s : State) : (a : Action) → Decidable (Serial s a)
  | .call i (.ok _) =>
    inferInstanceAs (Decidable (∀ t ∈ s.tasks[i]?, ∀ p ∈ t.label.post?,
      t.prog.head? = some (.selectChat p.from_ p.to_) →
        s.shared.db.selectChat p.from_ p.to_ = [] → ∀ pair ∈ p.pair?, ∀ u ∈ s.tasks,
          creating u ≠ some pair))
  | .call _ (.raises _ _) | .request _ | .finish _ | .abort _ => isTrue trivial

theorem pair?_eq_some {p : Post} {pair : Int × Int} (h : p.pair? = some pair) :
    p.from_ ≠ p.to_ ∧ ((pair.1 = p.from_ ∧ pair.2 = p.to_) ∨
      (pair.1 = p.to_ ∧ pair.2 = p.from_)) := by
  unfold Post.pair? at h
  split_ifs at h with hne
  rw [← Option.some.inj h]
  refine ⟨hne, ?_⟩
  show (min p.from_ p.to_ = p.from_ ∧ max p.from_ p.to_ = p.to_) ∨
    (min p.from_ p.to_ = p.to_ ∧ max p.from_ p.to_ = p.from_)
  omega

/-- The pair of a message is that of its two users. -/
theorem pair?_of_mem {p : Post} (hne : p.from_ ≠ p.to_) {pair : Int × Int}
    (hlt : pair.1 < pair.2) (h₁ : pair.1 = p.from_ ∨ pair.1 = p.to_)
    (h₂ : pair.2 = p.from_ ∨ pair.2 = p.to_) : p.pair? = some pair := by
  have hmin : min p.from_ p.to_ = pair.1 := by omega
  have hmax : max p.from_ p.to_ = pair.2 := by omega
  rw [Post.pair?, if_neg hne, hmin, hmax]

theorem pair?_lt {p : Post} {pair : Int × Int} (h : p.pair? = some pair) : pair.1 < pair.2 := by
  unfold Post.pair? at h
  split_ifs at h with hne
  rw [← Option.some.inj h]
  show min p.from_ p.to_ < max p.from_ p.to_
  omega

theorem creating_eq_some {t : Task} {pair : Int × Int} :
    creating t = some pair ↔ t.prog.head?.any SqlCall.creates = true ∧
      ∃ p, t.label.post? = some p ∧ p.pair? = some pair := by
  unfold creating
  split_ifs with hhead
  · rw [Option.bind_eq_some_iff]
    exact (and_iff_right hhead).symm
  · exact ⟨False.elim, fun hboth => absurd hboth.1 hhead⟩

/-- A request that is about to create a chat has looked it up in vain. -/
theorem phase_of_creating {t : Task} {g : Phase} {pair : Int × Int}
    (hp : t.prog.Obeys (monitor t.label) (Ended t.label) g) (h : creating t = some pair) :
    g = .missing ∨ ∃ chat_id, g = .created chat_id := by
  have hhead := (creating_eq_some.mp h).1
  rw [Option.any_eq_true] at hhead
  obtain ⟨c, hc, hcreates⟩ := hhead
  have hok := hp.head_ok hc
  cases c with
  | insertChat title => exact .inl hok.1
  | insertMembers chat_id from_ to_ => exact .inr ⟨chat_id, hok.1⟩
  | selectChat from_ to_ => cases hcreates
  | insertMessage chat_id sender_id content => cases hcreates
  | selectMessages user_id => cases hcreates

/-! ## The invariant -/

/-- Two users have one private chat, or one request that is about to create it. -/
structure Single (s : State) : Prop where
  one : OneChatPerPair s.shared.db
  nodup : (s.tasks.filterMap creating).Nodup
  fresh : ∀ pair ∈ s.tasks.filterMap creating, ∀ x,
    ¬ PrivateChat s.shared.db pair.1 pair.2 x

theorem single_init {db : Db} (h : OneChatPerPair db) : Single (State.init db) where
  one := h
  nodup := List.nodup_nil
  fresh _ hp := by cases hp

/-- Fewer requests are about to create a chat. -/
theorem Single.sublist {s s' : State} (h : Single s) (hdb : s'.shared.db = s.shared.db)
    (hsub : List.Sublist (s'.tasks.filterMap creating) (s.tasks.filterMap creating)) :
    Single s' := by
  refine ⟨?_, h.nodup.sublist hsub, ?_⟩
  · rw [hdb]
    exact h.one
  · rw [hdb]
    exact fun pair hpair => h.fresh pair (hsub.subset hpair)

/-- The requests that are about to create a chat, when one of them moves. -/
theorem creating_split {l₁ l₂ : List Task} {t : Task} {pair : Int × Int}
    (h : creating t = some pair) :
    ((l₁ ++ t :: l₂).filterMap creating).Perm (pair :: (l₁ ++ l₂).filterMap creating) := by
  rw [List.filterMap_append, List.filterMap_append, List.filterMap_cons_some h]
  exact List.perm_middle

theorem creating_split_none {l₁ l₂ : List Task} {t : Task} (h : creating t = none) :
    (l₁ ++ t :: l₂).filterMap creating = (l₁ ++ l₂).filterMap creating := by
  rw [List.filterMap_append, List.filterMap_append, List.filterMap_cons_none h]

theorem creating_sublist (l₁ l₂ : List Task) (t : Task) :
    List.Sublist ((l₁ ++ l₂).filterMap creating) ((l₁ ++ t :: l₂).filterMap creating) :=
  ((List.Sublist.refl l₁).append (List.sublist_cons_self t l₂)).filterMap _

/-- A request that adds members is about to create a chat for its users. -/
theorem creating_of_head {t : Task} {p : Post} (hp : t.label.post? = some p) {x : Int}
    (hc : t.prog.head? = some (.insertMembers x p.from_ p.to_)) {pair : Int × Int}
    (hpair : p.pair? = some pair) : creating t = some pair := by
  refine creating_eq_some.mpr ⟨?_, p, hp, hpair⟩
  rw [hc]
  rfl

/-- Two users have no private chat while a request is about to add them to one. -/
theorem Single.not_privateChat {s : State} (h : Single s) {t : Task} (ht : t ∈ s.tasks) {p : Post}
    (hp : t.label.post? = some p) (hne : p.from_ ≠ p.to_) {x : Int}
    (hc : t.prog.head? = some (.insertMembers x p.from_ p.to_)) {a b : Int} (hab : a ≠ b)
    (ha : a = p.from_ ∨ a = p.to_) (hb : b = p.from_ ∨ b = p.to_) (y : Int) :
    ¬ PrivateChat s.shared.db a b y := by
  have hpair : p.pair? = some (min a b, max a b) := by
    apply pair?_of_mem hne
    · show min a b < max a b
      omega
    · show min a b = p.from_ ∨ min a b = p.to_
      omega
    · show max a b = p.from_ ∨ max a b = p.to_
      omega
  have hnone : ¬ PrivateChat s.shared.db (min a b) (max a b) y :=
    h.fresh _ (List.mem_filterMap.mpr ⟨t, ht, creating_of_head hp hc hpair⟩) y
  rcases Int.le_total a b with hle | hle
  · rwa [Int.min_eq_left hle, Int.max_eq_right hle] at hnone
  · rw [Int.min_eq_right hle, Int.max_eq_left hle] at hnone
    exact fun hy => hnone hy.symm

/-- A statement keeps one private chat for two users. -/
theorem Single.one_effect {s : State} (h : Single s) (ho : Owns s) {t : Task} (ht : t ∈ s.tasks)
    {c : SqlCall} (hc : t.prog.head? = some c) {o : Outcome} {w : World} {g g' : Phase}
    (he : Effect t.label s.shared c o g w g') : OneChatPerPair w.db := by
  intro a b hab x y hx hy
  rcases he.privateChat ho ht hc hx with hx' | ⟨p, hp, hne, hcall, ha, hb⟩
  · rcases he.privateChat ho ht hc hy with hy' | ⟨p, hp, hne, hcall, ha, hb⟩
    · exact h.one a b hab x y hx' hy'
    · exact absurd hx' (h.not_privateChat ht hp hne (hcall ▸ hc) hab ha hb x)
  · rcases he.privateChat ho ht hc hy with hy' | ⟨p', hp', hne', hcall', -⟩
    · exact absurd hy' (h.not_privateChat ht hp hne (hcall ▸ hc) hab ha hb y)
    · rw [hcall] at hcall'
      exact (SqlCall.insertMembers.inj hcall').1

/-- The other requests that are about to create a chat still find none. -/
theorem Single.fresh_effect {s : State} (h : Single s) (ho : Owns s) {l₁ l₂ : List Task} {t : Task}
    (hs : s.tasks = l₁ ++ t :: l₂) {c : SqlCall} (hc : t.prog.head? = some c) {o : Outcome}
    {w : World} {g g' : Phase} (he : Effect t.label s.shared c o g w g') :
    ∀ pair ∈ (l₁ ++ l₂).filterMap creating, ∀ x, ¬ PrivateChat w.db pair.1 pair.2 x := by
  intro pair hpair x hx
  have ht : t ∈ s.tasks := by
    rw [hs]
    exact List.mem_append_right _ (List.mem_cons_self ..)
  rcases he.privateChat ho ht hc hx with hold | ⟨p, hp, hne, hcall, h₁, h₂⟩
  · apply h.fresh pair _ x hold
    rw [hs]
    exact (creating_sublist l₁ l₂ t).subset hpair
  · -- only this request was about to create a chat for its users
    obtain ⟨u, -, hu⟩ := List.mem_filterMap.mp hpair
    obtain ⟨-, q, -, hq⟩ := creating_eq_some.mp hu
    have hpq : p.pair? = some pair := pair?_of_mem hne (pair?_lt hq) h₁ h₂
    have hnodup := h.nodup
    rw [hs, (creating_split (creating_of_head hp (hcall ▸ hc) hpq)).nodup_iff,
      List.nodup_cons] at hnodup
    exact hnodup.1 hpair

/-- A request that is about to create a chat after a statement was so before, or has just looked
the chat up in vain. -/
theorem Effect.creating_new {t : Task} {w w' : World} {c : SqlCall} (hc : t.prog.head? = some c)
    {o : Outcome} {g g' : Phase} (he : Effect t.label w c o g w' g') {p : Cpp Response}
    (hp : p.Obeys (monitor t.label) (Ended t.label) g') {pair : Int × Int}
    (h : creating { t with prog := p } = some pair) :
    (creating t = some pair ∧ ∀ x a b, c ≠ .insertMembers x a b) ∨
      (w' = w ∧ (∃ ω, o = .ok ω) ∧ ∃ q, t.label.post? = some q ∧ q.pair? = some pair ∧
        c = .selectChat q.from_ q.to_ ∧ w.db.selectChat q.from_ q.to_ = []) := by
  have hphase := phase_of_creating hp h
  obtain ⟨-, q, hq, hpair⟩ := creating_eq_some.mp h
  cases he with
  | @notFound q' ω hq' hnone =>
    have hqq : q' = q := post_unique hq' hq
    rw [hqq] at hnone ⊢
    exact .inr ⟨rfl, ⟨ω, rfl⟩, q, hq, hpair, rfl, hnone⟩
  | create _ _ _ _ _ _ _ _ =>
    refine .inl ⟨creating_eq_some.mpr ⟨?_, q, hq, hpair⟩, fun _ _ _ hcall => by cases hcall⟩
    rw [hc]
    rfl
  | join _ _ _ _ _ _ _ hg => rcases hg with rfl | rfl <;> simp at hphase
  | store _ _ _ _ _ _ hg => rcases hg with rfl | rfl <;> simp at hphase
  | found _ _ => simp at hphase
  | read => simp at hphase
  | fail _ _ _ => simp at hphase

/-- The invariant is kept by the statements of serial runs. -/
theorem Single.call {s : State} (h : Single s) (ho : Owns s) {i : Nat} {o : Outcome}
    (ha : Serial s (.call i o)) {l₁ l₂ : List Task} {t : Task} {c : SqlCall} {w : World}
    {p : Cpp Response} (hi : s.tasks[i]? = some t) (hs : s.tasks = l₁ ++ t :: l₂)
    (hc : t.prog.head? = some c) {g g' : Phase} (he : Effect t.label s.shared c o g w g')
    (hp : p.Obeys (monitor t.label) (Ended t.label) g') :
    Single ⟨w, l₁ ++ { t with prog := p } :: l₂⟩ := by
  have ht : t ∈ s.tasks := List.mem_of_getElem? hi
  have hone := h.one_effect ho ht hc he
  have hfresh := h.fresh_effect ho hs hc he
  have hsub : List.Sublist ((l₁ ++ l₂).filterMap creating) (s.tasks.filterMap creating) := by
    rw [hs]
    exact creating_sublist l₁ l₂ t
  cases hcreating : creating { t with prog := p } with
  | none =>
    have hsame : (l₁ ++ { t with prog := p } :: l₂).filterMap creating =
        (l₁ ++ l₂).filterMap creating := creating_split_none hcreating
    refine ⟨hone, ?_, fun pair hpair => ?_⟩
    · show ((l₁ ++ { t with prog := p } :: l₂).filterMap creating).Nodup
      rw [hsame]
      exact h.nodup.sublist hsub
    · exact hfresh pair (hsame ▸ hpair)
  | some pair =>
    have hperm : ((l₁ ++ { t with prog := p } :: l₂).filterMap creating).Perm
        (pair :: (l₁ ++ l₂).filterMap creating) := creating_split hcreating
    have hnew : pair ∉ (l₁ ++ l₂).filterMap creating ∧
        ∀ x, ¬ PrivateChat w.db pair.1 pair.2 x := by
      rcases he.creating_new hc hp hcreating with
        ⟨hold, hcall⟩ | ⟨rfl, ⟨ω, rfl⟩, q, hq, hpair, rfl, hnil⟩
      · -- the chat is created, and has no members yet
        have hnodup := h.nodup
        rw [hs, (creating_split hold).nodup_iff, List.nodup_cons] at hnodup
        refine ⟨hnodup.1, fun x hx => ?_⟩
        rcases he.privateChat ho ht hc hx with hx | ⟨q, -, -, hjoin, -⟩
        · exact h.fresh pair (List.mem_filterMap.mpr ⟨t, ht, hold⟩) x hx
        · exact hcall _ _ _ hjoin
      · -- the chat has been looked up in vain, and no other request creates it
        refine ⟨fun hmem => ?_, fun x hx => ?_⟩
        · obtain ⟨u, hu, hpu⟩ := List.mem_filterMap.mp (hsub.subset hmem)
          exact ha t hi q hq hc hnil pair hpair u hu hpu
        · have hlookup : x ∉ s.shared.db.selectChat q.from_ q.to_ := by
            rw [hnil]
            exact List.not_mem_nil
          apply hlookup
          rcases (pair?_eq_some hpair).2 with ⟨h₁, h₂⟩ | ⟨h₁, h₂⟩
          · rw [h₁, h₂] at hx
            exact Db.mem_selectChat.mpr hx
          · rw [h₁, h₂] at hx
            exact Db.mem_selectChat.mpr hx.symm
    refine ⟨hone, ?_, fun pair' hpair' => ?_⟩
    · exact hperm.nodup_iff.mpr (List.nodup_cons.mpr ⟨hnew.1, h.nodup.sublist hsub⟩)
    · rcases List.mem_cons.mp (hperm.mem_iff.mp hpair') with rfl | hrest
      · exact hnew.2
      · exact hfresh pair' hrest

/-- The invariant is kept by every step of a serial run. -/
theorem Single.step {s s' : State} {a : Action} (hi : Single s) (hb : Base s) (ho : Owns s)
    (ha : Serial s a) (h : step s a = some s') : Single s' := by
  cases move_of_step h with
  | request r =>
    have hnone : creating ⟨r, HandleRequestThrow r, ()⟩ = none := by
      rw [Option.eq_none_iff_forall_ne_some]
      intro pair hpair
      have hphase := phase_of_creating (handle_obeys r) hpair
      simp at hphase
    refine hi.sublist rfl ?_
    have hsame : (s.tasks ++ [(⟨r, HandleRequestThrow r, ()⟩ : Task)]).filterMap creating =
        s.tasks.filterMap creating := by
      rw [creating_split_none hnone, List.append_nil]
    rw [hsame]
  | call hget hs hc hcall =>
    obtain ⟨g, hg, -⟩ := hb.running _ (List.mem_of_getElem? hget)
    obtain ⟨g', he, hp⟩ := hcall g hg
    exact hi.call ho ha hget hs hc he hp
  | answer hs _ =>
    refine hi.sublist rfl ?_
    rw [hs]
    exact creating_sublist _ _ _
  | leave hs =>
    refine hi.sublist rfl ?_
    rw [hs]
    exact creating_sublist _ _ _

/-- **One private chat for two users.** A serial run keeps at most one. -/
theorem one_chat_per_pair {db : Db} (hone : OneChatPerPair db) {as : List Action} {s : State}
    (hm : Runs.Meets step Serial (State.init db) as)
    (hrun : Runs.exec step (State.init db) as = some s) : OneChatPerPair s.shared.db := by
  have hinv := Runs.exec_invariant (I := fun s => (Base s ∧ Owns s) ∧ Single s)
    (fun _ _ _ hI ha h => ⟨⟨hI.1.1.step h, hI.1.2.step hI.1.1 h⟩, hI.2.step hI.1.1 hI.1.2 ha h⟩)
    ⟨⟨base_init db, owns_init db⟩, single_init hone⟩ hm hrun
  exact hinv.2.one

theorem oneChatPerPair_withUsers (users : List Int) : OneChatPerPair (Db.withUsers users) := by
  intro a b _ x y hx
  obtain ⟨c, hc, -⟩ := hx.1
  cases hc

/-- Two users write to each other, the second one after the chat has been created. -/
def replyRun : List Action :=
  firstMessageRun ++ [.request (postRequest 2 1 "hi"), .call 0 (.ok ⟨0, 0, []⟩),
    .call 0 (.ok ⟨0, 1, []⟩), .finish 0]

theorem one_chat_per_pair_reply :
    ∃ s, Runs.exec step (State.init (Db.withUsers [1, 2])) replyRun = some s ∧
      OneChatPerPair s.shared.db := by
  have hsome : (Runs.exec step (State.init (Db.withUsers [1, 2])) replyRun).isSome = true := by
    decide
  obtain ⟨s, hs⟩ := Option.isSome_iff_exists.mp hsome
  have hm : Runs.Meets step Serial (State.init (Db.withUsers [1, 2])) replyRun := by decide
  exact ⟨s, hs, one_chat_per_pair (oneChatPerPair_withUsers _) hm hs⟩

/-- Two users write to each other at the same time. -/
def crossRun : List Action :=
  [.request (postRequest 1 2 "hello"), .request (postRequest 2 1 "hi"),
    .call 0 (.ok ⟨0, 0, []⟩), .call 1 (.ok ⟨0, 0, []⟩), .call 0 (.ok ⟨0, 0, []⟩),
    .call 1 (.ok ⟨0, 0, []⟩), .call 0 (.ok ⟨0, 0, []⟩), .call 1 (.ok ⟨0, 0, []⟩)]

/-- Each of them creates a chat. -/
theorem crossRun_creates_two :
    OneChatPerPair (Db.withUsers [1, 2]) ∧
      ∃ s, Runs.exec step (State.init (Db.withUsers [1, 2])) crossRun = some s ∧
        ¬ OneChatPerPair s.shared.db := by
  have hlookup : (Runs.exec step (State.init (Db.withUsers [1, 2])) crossRun).map (fun s =>
      s.shared.db.selectChat 1 2) = some [1, 2] := by decide
  obtain ⟨s, hs, hchats⟩ := Option.map_eq_some_iff.mp hlookup
  refine ⟨oneChatPerPair_withUsers _, s, hs, fun hone => ?_⟩
  have hfirst : (1 : Int) ∈ s.shared.db.selectChat 1 2 := by
    rw [hchats]
    decide
  have hsecond : (2 : Int) ∈ s.shared.db.selectChat 1 2 := by
    rw [hchats]
    decide
  have heq := hone 1 2 (by decide) 1 2 (Db.mem_selectChat.mp hfirst) (Db.mem_selectChat.mp hsecond)
  omega

end SocialNetwork.ChatService

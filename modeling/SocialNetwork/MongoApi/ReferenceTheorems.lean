import Mathlib.Data.List.Nodup
import SocialNetwork.MongoApi.ServiceTheorems

/-!
# References to users

Posts and messages name users by their ids. `KeepsReferences` says of one step that the users it
names are there, and that a user it deletes is not named; `references_kept_iff` that these are
just the steps that keep the references.
-/

namespace SocialNetwork.MongoApi

open DocStore KeyValue

/-! ## References -/

/-- The author of a comment. -/
def userOf : Value → List Value
  | .obj comment => (Doc.get comment "user_id").toList
  | _ => []

/-- The ids of users that a document names. -/
def refs : Coll → Doc → List Value
  | .users, _ => []
  | .posts, post => (post.get "author_id").toList ++ Doc.entries post "likes" ++
      (Doc.entries post "comments").flatMap userOf
  | .messages, message => (message.get "from_user_id").toList ++ (message.get "to_user_id").toList

/-- The value is the `_id` of a user. -/
def Db.IsUser (db : Db) (v : Value) : Prop := some v ∈ (db.docs .users).map (·.get "_id")

/-- **Referential integrity.** -/
def Db.Referential (db : Db) : Prop := ∀ c, ∀ d ∈ db.docs c, ∀ v ∈ refs c d, db.IsUser v

instance (db : Db) (v : Value) : Decidable (db.IsUser v) := inferInstanceAs (Decidable (_ ∈ _))

/-- The ids of users that an update adds. -/
def addedRefs (update : Update) : List Value :=
  update.addToSet.map Prod.snd ++ update.push.flatMap fun x => userOf x.2

/-! ## What writes do to the references -/

section Writes

variable {db db' : Db} {c : Coll} {d d' : Doc}

/-- The references are read from these fields. -/
theorem refs_congr (h : ∀ f ∈ ["author_id", "likes", "comments", "from_user_id", "to_user_id"],
    d'.get f = d.get f) : refs c d' = refs c d := by
  have hentries : ∀ f ∈ ["likes", "comments"], Doc.entries d' f = Doc.entries d f := by
    intro f hf
    unfold Doc.entries
    rw [h f (by
      simp only [List.mem_cons, List.not_mem_nil, or_false] at hf
      rcases hf with rfl | rfl <;> decide)]
  cases c with
  | users => rfl
  | posts =>
    simp only [refs]
    rw [h "author_id" (by decide), hentries "likes" (by decide), hentries "comments" (by decide)]
  | messages =>
    simp only [refs]
    rw [h "from_user_id" (by decide), h "to_user_id" (by decide)]

theorem refs_new (c : Coll) (id : ObjectId) (doc : Doc) :
    refs c (("_id", .oid id) :: doc) = refs c doc := by
  apply refs_congr
  intro f hf
  have hne : f ≠ "_id" := by
    rintro rfl
    exact absurd hf (by decide)
  rw [Doc.get_cons, if_neg hne]

theorem refs_read (c : Coll) (d : Doc) (v : Value) : refs c (d.setAll [("is_read", v)]) = refs c d := by
  apply refs_congr
  intro f hf
  have hne : f ≠ "is_read" := by
    rintro rfl
    exact absurd hf (by decide)
  exact Doc.get_set_of_ne d v hne

theorem mem_addToSetOp {vs : List Value} {v w : Value} : w ∈ addToSetOp vs v ↔ w ∈ vs ∨ w = v := by
  unfold addToSetOp
  split_ifs with hv
  · exact ⟨.inl, fun h => h.elim id fun heq => heq ▸ hv⟩
  · rw [List.mem_append, List.mem_singleton]

/-- An update of a post adds the references it says, and no others. -/
theorem PostUpdate.mem_refs {update : Update} (h : PostUpdate update) (happly : update.apply d = some d') :
    (∀ v ∈ refs .posts d', v ∈ refs .posts d ∨ v ∈ addedRefs update) ∧
      ∀ v ∈ addedRefs update, v ∈ refs .posts d' := by
  cases h with
  | like user =>
    rw [Update.apply_addToSet] at happly
    rw [arrayField_eq_some happly]
    unfold refs addedRefs
    simp only [Doc.get_set_of_ne _ _ (show "author_id" ≠ "likes" by decide), Doc.entries_set_self,
      Doc.entries_set_of_ne _ _ (show "comments" ≠ "likes" by decide), List.mem_append, mem_addToSetOp,
      List.map_cons, List.map_nil, List.flatMap_nil, List.append_nil, List.mem_singleton]
    exact ⟨fun v hv => by tauto, fun v hv => .inl (.inr (.inr hv))⟩
  | unlike user =>
    rw [Update.apply_pull] at happly
    -- an unlike only takes references away
    refine ⟨fun v hv => .inl ?_, nofun⟩
    rcases pullField_eq_some happly with rfl | rfl
    · exact hv
    · unfold refs at hv ⊢
      simp only [Doc.get_set_of_ne _ _ (show "author_id" ≠ "likes" by decide), Doc.entries_set_self,
        Doc.entries_set_of_ne _ _ (show "comments" ≠ "likes" by decide), List.mem_append, pullOp,
        List.mem_filter] at hv ⊢
      tauto
  | comment user text created_at =>
    rw [Update.apply_push] at happly
    rw [arrayField_eq_some happly]
    unfold refs addedRefs
    simp only [Doc.get_set_of_ne _ _ (show "author_id" ≠ "comments" by decide), Doc.entries_set_self,
      Doc.entries_set_of_ne _ _ (show "likes" ≠ "comments" by decide), List.mem_append, pushOp,
      List.flatMap_append, List.map_nil, List.nil_append, List.flatMap_cons, List.flatMap_nil,
      List.append_nil]
    exact ⟨fun v hv => by tauto, fun v hv => .inr (.inr hv)⟩

end Writes

/-! ## Which writes keep the references -/

section Keeps

variable {db db' : Db} {c : Coll}

theorem Db.Referential.congr (h : db.Referential) (hids : db'.ids .users = db.ids .users)
    (hdocs : ∀ c, ∀ d ∈ db'.docs c, ∃ d₀ ∈ db.docs c, refs c d = refs c d₀) : db'.Referential := by
  intro c d hd v hv
  obtain ⟨d₀, hd₀, hrefs⟩ := hdocs c d hd
  show some v ∈ db'.ids .users
  rw [hids]
  exact h c d₀ hd₀ v (hrefs ▸ hv)

/-- An insert keeps the references if the users that it names are there. -/
theorem Db.Referential.insert_iff (h : db.Referential) {id : ObjectId} {doc : Doc}
    (hinsert : db.insert_one c id doc = some db') :
    db'.Referential ↔ ∀ v ∈ refs c doc, db.IsUser v := by
  obtain ⟨hdocs, hother, -⟩ := Db.docs_insert_one hinsert
  have hnew : refs c (("_id", .oid id) :: doc) = refs c doc := refs_new c id doc
  have husers : ∀ v, db.IsUser v → db'.IsUser v :=
    fun v hv => (Db.mem_ids_insert_one hinsert).mpr (.inl hv)
  constructor
  · intro h' v hv
    have hc : c ≠ .users := by
      rintro rfl
      cases hv
    have hmem : (("_id", .oid id) :: doc : Doc) ∈ db'.docs c := by
      rw [hdocs]
      exact List.mem_append_right _ List.mem_cons_self
    have huser := h' c _ hmem v (hnew ▸ hv)
    unfold Db.IsUser at huser ⊢
    rw [← hother .users (Ne.symm hc)]
    exact huser
  · intro hrefs c' d hd v hv
    apply husers
    rcases Db.mem_insert_one hinsert hd with hd | ⟨rfl, rfl⟩
    · exact h c' d hd v hv
    · rw [hnew] at hv
      exact hrefs v hv

/-- An update of a post keeps the references if the users that it adds are there, or there is no
such post. -/
theorem Db.Referential.update_posts_iff (h : db.Referential) {filter : Filter} {update : Update}
    (hupdate : PostUpdate update) {n : Nat}
    (hresult : db.update_one .posts filter update = some (n, db')) :
    db'.Referential ↔
      ((∃ post ∈ db.docs .posts, filter.holds post = true) → ∀ v ∈ addedRefs update, db.IsUser v) := by
  obtain ⟨hdocs, hother, -⟩ := Db.docs_update_one hresult
  have husers : ∀ v, db'.IsUser v ↔ db.IsUser v := by
    intro v
    unfold Db.IsUser
    rw [hother .users (by decide)]
  constructor
  · rintro h' ⟨post, hpost, hholds⟩ v hv
    rcases hdocs with ⟨l₁, d, l₂, d', -, -, happly, -, hafter, -⟩ | ⟨hno, -, -⟩
    · refine (husers v).mp (h' .posts d' ?_ v ((hupdate.mem_refs happly).2 v hv))
      rw [hafter]
      exact Lists.mem_middle.mpr (.inl rfl)
    · rw [hno post hpost] at hholds
      cases hholds
  · intro hrefs c x hx v hv
    rw [husers]
    rcases Db.mem_update_one hresult hx with hx | ⟨rfl, d, hd, hholds, happly, -⟩
    · exact h c x hx v hv
    · rcases (hupdate.mem_refs happly).1 v hv with hv | hv
      · exact h .posts d hd v hv
      · exact hrefs ⟨d, hd, hholds⟩ v hv

/-- An update that changes no reference and no id. -/
theorem Db.Referential.update_other (h : db.Referential) {filter : Filter} {update : Update} {n : Nat}
    (hrefs : ∀ d d', update.apply d = some d' → refs c d' = refs c d)
    (hresult : db.update_one c filter update = some (n, db')) : db'.Referential := by
  refine h.congr (Db.ids_update_one hresult .users) fun c' x hx => ?_
  rcases Db.mem_update_one hresult hx with hx | ⟨rfl, d, hd, -, happly, -⟩
  · exact ⟨x, hx, rfl⟩
  · exact ⟨d, hd, hrefs d x happly⟩

/-- A deletion of a user keeps the references if no document names the user. -/
theorem Db.Referential.delete_users_iff (h : db.Referential) (filter : Filter) :
    (db.delete_one .users filter).2.Referential ↔
      ∀ user, findOne filter (db.docs .users) = some user →
        ∀ c, ∀ d ∈ db.docs c, ∀ v ∈ refs c d, Doc.get user "_id" ≠ some v := by
  obtain ⟨-, hother, -⟩ := Db.docs_delete_one db .users filter
  have hids : ∀ v, (db.delete_one .users filter).2.IsUser v ↔ db.IsUser v ∧
      ∀ user, findOne filter (db.docs .users) = some user → Doc.get user "_id" ≠ some v := by
    intro v
    have hmem : some v ∈ (db.delete_one .users filter).2.ids .users ↔ _ := Db.mem_ids_delete_one filter
    exact hmem.trans (and_congr Iff.rfl (forall_prop_of_true rfl))
  -- only posts and messages name users
  have hkept : ∀ c d v, v ∈ refs c d → (db.delete_one .users filter).2.docs c = db.docs c := by
    intro c d v hv
    apply hother
    rintro rfl
    cases hv
  constructor
  · intro h' user huser c d hd v hv
    rw [← hkept c d v hv] at hd
    exact ((hids v).mp (h' c d hd v hv)).2 user huser
  · intro hnone c d hd v hv
    rw [hkept c d v hv] at hd
    exact (hids v).mpr ⟨h c d hd v hv, fun user huser => hnone user huser c d hd v hv⟩

/-- Other documents may be deleted. -/
theorem Db.Referential.delete_other (h : db.Referential) (hc : c ≠ .users) (filter : Filter) :
    (db.delete_one c filter).2.Referential := by
  obtain ⟨-, hother, -⟩ := Db.docs_delete_one db c filter
  refine h.congr ?_ fun c' d hd => ⟨d, Db.mem_delete_one hd, rfl⟩
  unfold Db.ids
  rw [hother .users (Ne.symm hc)]

end Keeps

/-! ## Steps -/

/-- The users that a call names are there if it takes effect, and a user that it deletes is not
named. -/
def SafeCall (ω : Choice) (db : Db) : Call → Prop
  | .insert_one coll doc => (db.insert_one coll ω.id doc).isSome = true →
      ∀ v ∈ refs coll doc, db.IsUser v
  | .update_one .posts filter update => (db.update_one .posts filter update).isSome = true →
      (∃ post ∈ db.docs .posts, filter.holds post = true) → ∀ v ∈ addedRefs update, db.IsUser v
  | .delete_one .users filter => ∀ user, findOne filter (db.docs .users) = some user →
      ∀ c, ∀ d ∈ db.docs c, ∀ v ∈ refs c d, Doc.get user "_id" ≠ some v
  | _ => True

/-- The choice of a call that takes effect. -/
def Outcome.choice? : Outcome → Option Choice
  | .ok ω => some ω
  | .raises true ω => some ω
  | .raises false _ => none

/-- The step keeps the references to users. -/
def KeepsReferences (s : State) : Action → Prop
  | .call i outcome => ∀ task ω c, s.tasks[i]? = some task → task.prog.head? = some c →
      outcome.choice? = some ω → SafeCall ω s.shared.db c
  | _ => True

instance (ω : Choice) (db : Db) : (c : Call) → Decidable (SafeCall ω db c)
  | .insert_one coll doc => inferInstanceAs (Decidable (_ → ∀ v ∈ refs coll doc, db.IsUser v))
  | .update_one .posts filter update => inferInstanceAs (Decidable (_ →
      (∃ post ∈ db.docs .posts, filter.holds post = true) → ∀ v ∈ addedRefs update, db.IsUser v))
  | .delete_one .users filter => inferInstanceAs (Decidable (∀ user ∈ findOne filter (db.docs .users),
      ∀ c, ∀ d ∈ db.docs c, ∀ v ∈ refs c d, Doc.get user "_id" ≠ some v))
  | .update_one .users _ _ | .update_one .messages _ _ | .delete_one .posts _ | .delete_one .messages _
  | .query _ | .find_one _ _ | .get _ | .setex _ _ _ | .delete_scanned _ | .incr _ | .expire _ _
  | .utcnow | .time => .isTrue trivial

instance (s : State) : (a : Action) → Decidable (KeepsReferences s a)
  | .call i outcome => decidable_of_iff (∀ task ∈ s.tasks[i]?, ∀ c ∈ task.prog.head?,
      ∀ ω ∈ outcome.choice?, SafeCall ω s.shared.db c)
        ⟨fun h task ω c ht hc hω => h task ht c hc ω hω, fun h task ht c hc ω hω => h task ω c ht hc hω⟩
  | .request _ | .finish _ | .tick _ => .isTrue trivial

section Steps

variable [Bson] {w w' : World} {g : Ghost} {r : Request} {ω : Choice} {c : Call}

/-- A call that takes effect. -/
theorem execute_referential_iff (h : w.db.Referential) (hallows : g.allows r c)
    {x : Except PyError c.Answer} (hx : execute ω r c w = some (w', x)) :
    w'.db.Referential ↔ SafeCall ω w.db c := by
  have hframe := execute_frame hx
  by_cases hmongo : c.changesMongo = false
  · rw [hframe.db hmongo]
    refine iff_of_true h ?_
    cases c with
    | insert_one coll doc => cases hmongo
    | update_one coll filter update => cases hmongo
    | delete_one coll filter => cases hmongo
    | _ => trivial
  · cases c with
    | insert_one coll doc =>
      simp only [execute] at hx
      split_ifs at hx
      split at hx
      · next db hdb =>
        cases hx
        rw [h.insert_iff hdb]
        simp only [SafeCall, hdb]
        exact ⟨fun hall _ => hall, fun hall => hall rfl⟩
      · next hdb =>
        cases hx
        simp only [SafeCall, hdb]
        exact iff_of_true h fun hsome => absurd hsome Bool.false_ne_true
    | update_one coll filter update =>
      simp only [execute] at hx
      cases hresult : w.db.update_one coll filter update with
      | none =>
        rw [hresult] at hx
        cases hx
        refine iff_of_true h ?_
        cases coll with
        | posts =>
          simp only [SafeCall, hresult]
          exact fun hsome => absurd hsome Bool.false_ne_true
        | _ => trivial
      | some result =>
        obtain ⟨n, db⟩ := result
        rw [hresult] at hx
        cases hx
        cases coll with
        | posts =>
          rw [h.update_posts_iff hallows hresult]
          simp only [SafeCall, hresult]
          exact ⟨fun hall _ => hall, fun hall => hall rfl⟩
        -- users refer to nobody, and of a message only is_read is set
        | users => exact iff_of_true (h.update_other (fun _ _ _ => rfl) hresult) trivial
        | messages =>
          have hupdate : update = { set := [("is_read", .bool true)] } := hallows
          refine iff_of_true (h.update_other (fun d d' happly => ?_) hresult) trivial
          rw [hupdate, Update.apply_set] at happly
          rw [← Option.some.inj happly]
          exact refs_read _ _ _
    | delete_one coll filter =>
      cases hx
      cases coll with
      | users => exact h.delete_users_iff filter
      | posts => exact absurd rfl hallows
      | messages => exact iff_of_true (h.delete_other (by decide) filter) trivial
    | _ => exact absurd rfl hmongo

/-- A step of a call. -/
theorem exec_referential_iff (h : w.db.Referential) (hallows : g.allows r c) {aux : Option Scan}
    {outcome : Outcome} {y : Option Scan ⊕ Except PyError c.Answer}
    (hexec : exec r c aux outcome w = some (w', y)) :
    w'.db.Referential ↔ ∀ ω, outcome.choice? = some ω → SafeCall ω w.db c := by
  by_cases hloop : c.isLoop = true
  · cases c with
    | delete_scanned prefix_ =>
      have hdb : w'.db = w.db := by
        cases loopStep_cases hexec with
        | raises w₁ hw₁ =>
          rcases hw₁ with rfl | ⟨key, -, rfl⟩
          · rfl
          · rfl
        | _ => rfl
      rw [hdb]
      exact iff_of_true h fun ω _ => trivial
    | _ => cases hloop
  · rcases exec_atomic (Bool.not_eq_true _ ▸ hloop) hexec with
      ⟨ω, x, rfl, hx, -⟩ | ⟨ω, x, rfl, hx, -⟩ | ⟨⟨ω, rfl⟩, rfl, -⟩
    · rw [execute_referential_iff h hallows hx]
      exact ⟨fun hsafe _ heq => Option.some.inj heq ▸ hsafe, fun hall => hall ω rfl⟩
    · rw [execute_referential_iff h hallows hx]
      exact ⟨fun hsafe _ heq => Option.some.inj heq ▸ hsafe, fun hall => hall ω rfl⟩
    · exact iff_of_true h nofun

theorem step_referential_iff {s s' : State} {a : Action} (hs : ∀ task ∈ s.tasks, KeepsProtocol task)
    (h : s.shared.db.Referential) (hstep : step s a = some s') :
    s'.shared.db.Referential ↔ KeepsReferences s a := by
  cases a with
  | request r =>
    cases hstep
    exact iff_of_true h trivial
  | call i outcome =>
    obtain ⟨l₁, task, l₂, task', c, k, y, hi, -, -, hprog, hexec, -⟩ := call_eq_some hstep
    obtain ⟨g, hobeys⟩ := hs task (List.mem_of_getElem? hi)
    rw [hprog] at hobeys
    rw [exec_referential_iff h hobeys.1 hexec]
    -- the condition speaks of the task by its place in the list
    constructor
    · intro hsafe task₁ ω c₁ hi₁ hhead hω
      rw [← Option.some.inj (hi.symm.trans hi₁), hprog] at hhead
      cases hhead
      exact hsafe ω hω
    · intro hkeeps ω hω
      refine hkeeps task ω c hi ?_ hω
      rw [hprog]
      rfl
  | finish i =>
    obtain ⟨l₁, task, l₂, r, -, -, rfl⟩ := finish_eq_some hstep
    exact iff_of_true h trivial
  | tick ms =>
    cases hstep
    exact iff_of_true h trivial

end Steps

/-! ## Runs -/

/-- **References.** From the empty database, every state of a run has referential integrity just if
every step keeps the references: the users that it names are there at that moment, and no document
names a user that it deletes. -/
theorem references_kept_iff [Bson] {as : List Action} {s : State}
    (hrun : Runs.exec step (State.init Db.empty) as = some s) :
    (∀ before after m, as = before ++ after →
        Runs.exec step (State.init Db.empty) before = some m → m.shared.db.Referential) ↔
      Runs.Meets step KeepsReferences (State.init Db.empty) as := by
  have hempty : (State.init Db.empty).shared.db.Referential := by
    intro c d hd
    cases c <;> cases hd
  refine Runs.forall_states_iff (I := fun s : State => ∀ task ∈ s.tasks, KeepsProtocol task)
    (P := fun s : State => s.shared.db.Referential) (fun s a s' hI hP hstep => ?_) nofun hempty hrun
  exact ⟨keepsProtocol_step hI hstep, step_referential_iff hI hP hstep⟩

open scoped Hex

/-- The next call of a request in flight is answered, with this id where it inserts. -/
def answerWith (i id : Nat) : Action := .call i (.ok ⟨.ofNat id, [], [], false⟩)

/-- The user with the first id is inserted. -/
def addBob : List Action :=
  [.request (.create_user ⟨"bob", "bob@example.com", "secret", "Bob", "Brown", some 30, []⟩),
    answerWith 0 0, answerWith 0 0]

/-- Carol likes a post of Bob's, who writes her a message, and Dave comes and goes. -/
def likeAndWrite : List Action :=
  addBob ++
    [.request (.create_user ⟨"carol", "carol@example.com", "secret", "Carol", "Davis", some 25, []⟩),
      answerWith 1 1, answerWith 1 1,
      .request (.create_post ⟨(ObjectId.ofNat 0).hex, "hello", []⟩),
      answerWith 2 2, answerWith 2 2, answerWith 2 2,
      .request (.like_post (ObjectId.ofNat 2).hex (ObjectId.ofNat 1).hex), answerWith 3 2,
      .request (.create_message ⟨(ObjectId.ofNat 0).hex, (ObjectId.ofNat 1).hex, "thanks"⟩ none),
      answerWith 4 3, answerWith 4 3, answerWith 4 3, answerWith 4 3, answerWith 4 3, answerWith 4 3,
      answerWith 4 3,
      .request (.create_user ⟨"dave", "dave@example.com", "secret", "Dave", "White", some 35, []⟩),
      answerWith 5 4, answerWith 5 4,
      .request (.delete_user (ObjectId.ofNat 4).hex), answerWith 6 4]

theorem references_kept_iff_bob : ∃ s,
    Runs.exec step (State.init Db.empty) likeAndWrite = some s ∧
    (s.shared.db.docs .users).length = 2 ∧
    (s.shared.db.docs .posts).flatMap (refs .posts) = [.oid (.ofNat 0), .oid (.ofNat 1)] ∧
    (s.shared.db.docs .messages).flatMap (refs .messages) = [.oid (.ofNat 0), .oid (.ofNat 1)] ∧
    s.shared.db.Referential := by
  have hdocs : (Runs.exec step (State.init Db.empty) likeAndWrite).map
      (fun s => ((s.shared.db.docs .users).length, (s.shared.db.docs .posts).flatMap (refs .posts),
        (s.shared.db.docs .messages).flatMap (refs .messages))) =
        some (2, [.oid (.ofNat 0), .oid (.ofNat 1)], [.oid (.ofNat 0), .oid (.ofNat 1)]) := by
    decide +kernel
  have hkeeps : Runs.Meets step KeepsReferences (State.init Db.empty) likeAndWrite := by decide +kernel
  obtain ⟨s, hrun, hs⟩ := Option.map_eq_some_iff.mp hdocs
  obtain ⟨husers, hrefs⟩ := Prod.mk.inj hs
  obtain ⟨hposts, hmessages⟩ := Prod.mk.inj hrefs
  exact ⟨s, hrun, husers, hposts, hmessages,
    (references_kept_iff hrun).mpr hkeeps likeAndWrite [] s (List.append_nil _).symm hrun⟩

/-- Bob has written a post when he is deleted. -/
def deleteAuthor : List Action :=
  addBob ++
    [.request (.create_post ⟨(ObjectId.ofNat 0).hex, "hello", []⟩),
      answerWith 1 1, answerWith 1 1, answerWith 1 1,
      .request (.delete_user (ObjectId.ofNat 0).hex), answerWith 2 0]

/-- The post of a user that is deleted stays. -/
theorem deleted_author_stays : ∃ as s, Runs.exec step (State.init Db.empty) as = some s ∧
    ¬ s.shared.db.Referential := by
  have hresult : (Runs.exec step (State.init Db.empty) deleteAuthor).map
      (fun s => (s.shared.db.docs .users, (s.shared.db.docs .posts).flatMap (refs .posts))) =
        some ([], [.oid (.ofNat 0)]) := by decide +kernel
  obtain ⟨s, hrun, hs⟩ := Option.map_eq_some_iff.mp hresult
  refine ⟨deleteAuthor, s, hrun, fun href => ?_⟩
  obtain ⟨husers, hposts⟩ := Prod.mk.inj hs
  have hauthor : Value.oid (.ofNat 0) ∈ (s.shared.db.docs .posts).flatMap (refs .posts) := by
    rw [hposts]
    exact List.mem_cons_self
  obtain ⟨post, hpost, hmem⟩ := List.mem_flatMap.mp hauthor
  have huser := href .posts post hpost _ hmem
  unfold Db.IsUser at huser
  rw [husers] at huser
  cases huser

end SocialNetwork.MongoApi

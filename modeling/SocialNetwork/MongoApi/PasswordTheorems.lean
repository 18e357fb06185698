import SocialNetwork.MongoApi.Blindness

/-!
# Passwords in responses

Two runs with the same choices, on databases and with registrations that differ in passwords only.
As long as the users that are shown have the same passwords in both (`Discreet`), the runs stay
alike and give the same responses.
-/

namespace SocialNetwork.MongoApi

open DocStore KeyValue

/-! ## Calls -/

/-- The requests are the same but for a password, which is accepted in both or the same. -/
def Request.Like : Request → Request → Prop
  | create_user user, create_user user' => user' = { user with password := user'.password } ∧
      (user'.password = user.password ∨ 6 ≤ user.password.length ∧ 6 ≤ user'.password.length)
  | r, r' => r = r'

/-- Two worlds that differ in passwords only. -/
structure World.Like (w w' : World) : Prop where
  db : w.db.Like w'.db
  redis : w.redis = w'.redis
  now : w.now = w'.now
  responses : w.answered.map Prod.snd = w'.answered.map Prod.snd

/-- The users that a call reads have the same passwords. -/
def SameUsers (db db' : Db) : Call → Prop
  | .find_one .users filter => findOne filter (db.docs .users) = findOne filter (db'.docs .users)
  | .query (.find .users filter _) =>
    DocStore.find filter (db.docs .users) = DocStore.find filter (db'.docs .users)
  | _ => True

instance (db db' : Db) : (c : Call) → Decidable (SameUsers db db' c)
  | .find_one .users _ | .query (.find .users _ _) => inferInstanceAs (Decidable (_ = _))
  | .find_one .posts _ | .find_one .messages _ | .query (.find .posts _ _)
  | .query (.find .messages _ _) | .query (.aggregate _ _) | .insert_one _ _ | .update_one _ _ _
  | .delete_one _ _ | .get _ | .setex _ _ _ | .delete_scanned _ | .incr _ | .expire _ _ | .utcnow
  | .time => .isTrue trivial

/-- The answers are the same, but for the password of a user that is found and not shown. -/
def AnswerLike (l : Request) : (c : Call) → Except PyError c.Answer → Except PyError c.Answer → Prop
  | .find_one .users _, .ok (d : Option Doc), .ok (d' : Option Doc) =>
    d.map mask = d'.map mask ∧ (l.reveals = true → d = d')
  | _, r, r' => r = r'

section Answers

variable {l l' : Request} {w w' : World} {c : Call}

theorem answerLike_refl (r : Except PyError c.Answer) : AnswerLike l c r r := by
  cases c with
  | find_one coll filter =>
    cases coll with
    | users =>
      cases r with
      | ok d => exact ⟨rfl, fun _ => rfl⟩
      | error e => rfl
    | _ => rfl
  | _ => rfl

/-- What follows answers that are alike is the same. -/
theorem Indifferent.eq {α : Type} {k : Except PyError c.Answer → Api α} (h : Indifferent l c k)
    {r r' : Except PyError c.Answer} (hr : AnswerLike l c r r') : k r = k r' := by
  cases c with
  | find_one coll filter =>
    cases coll with
    | users =>
      cases r with
      | error e => exact congrArg k hr
      | ok d =>
        cases r' with
        | error e => exact congrArg k hr
        | ok d' =>
          obtain ⟨hmask, hshown⟩ := hr
          rcases h with hl | hk
          · exact congrArg (fun d : Option Doc => k (.ok d)) (hshown hl)
          · cases d with
            | none =>
              rw [Option.map_eq_none_iff.mp hmask.symm]
            | some d =>
              obtain ⟨x, rfl, hx⟩ := Option.map_eq_some_iff.mp hmask.symm
              exact hk d x hx.symm
    | _ => exact congrArg k hr
  | _ => exact congrArg k hr

/-- Requests without a password are alike when they are equal. -/
theorem Request.Like.eq (h : l.Like l') (hl : l.registers = false) : l = l' := by
  cases l with
  | create_user user => cases hl
  | _ => exact h

theorem docs_like {db db' : Db} (h : db.Like db') {coll : Coll} (hc : coll ≠ .users) :
    db.docs coll = db'.docs coll := by
  unfold Db.docs
  rw [h.coll hc]

/-- Users that are found alike are read alike. -/
theorem readOne_like {filter : Filter} {d d' : Option Doc} (h : d.map mask = d'.map mask)
    (hsame : l.reveals = true → d = d') :
    AnswerLike l (.find_one .users filter) (readOne d) (readOne d') := by
  cases d with
  | none =>
    rw [Option.map_eq_none_iff.mp h.symm]
    exact answerLike_refl _
  | some d =>
    obtain ⟨x, rfl, hx⟩ := Option.map_eq_some_iff.mp h.symm
    have hdecodable := decodable_eq_of_mask hx
    by_cases hread : (Value.obj d).decodable = true
    · have hfirst : readOne (some d) = .ok (some d) := if_pos hread
      have hsecond : readOne (some x) = .ok (some x) := if_pos (hdecodable.trans hread)
      rw [hfirst, hsecond]
      exact ⟨h, hsame⟩
    · have hfirst : readOne (some d) = .error .invalidBSON := if_neg hread
      have hsecond : readOne (some x) = .error .invalidBSON := if_neg (hdecodable ▸ hread)
      rw [hfirst, hsecond]
      exact answerLike_refl _

/-- Worlds that are alike, with databases that are alike. -/
theorem World.Like.withDb (hw : w.Like w') {db db' : Db} (h : db.Like db') :
    World.Like { w with db := db } { w' with db := db' } := ⟨h, hw.redis, hw.now, hw.responses⟩

theorem World.Like.withRedis (hw : w.Like w') {redis redis' : Store Value Request}
    (h : redis = redis') : World.Like { w with redis := redis } { w' with redis := redis' } :=
  ⟨hw.db, h, hw.now, hw.responses⟩

end Answers

section Calls

variable {l l' : Request} {w w' : World} {ω : Choice} {c : Call}

/-- A query that is no look at passwords returns the same. -/
theorem query_like {db db' : Db} (h : db.Like db') {q : Query} (hq : CallBlind l (.query q))
    (hsame : l.reveals = true → SameUsers db db' (.query q)) :
    q.error? db = q.error? db' ∧ ∀ rows, q.Returns db rows ↔ q.Returns db' rows := by
  cases q with
  | find coll filter sort =>
    have hfind : DocStore.find filter (db.docs coll) = DocStore.find filter (db'.docs coll) := by
      cases coll with
      | users => exact hsame hq
      | posts => rw [docs_like h (by decide)]
      | messages => rw [docs_like h (by decide)]
    refine ⟨?_, fun rows => ?_⟩
    · simp only [Query.error?, hfind]
    · simp only [Query.Returns, hfind]
  | aggregate coll p =>
    obtain ⟨rfl, rfl⟩ := hq
    have hposts := docs_like h (show Coll.posts ≠ .users by decide)
    have hrun : pipeline.run db.docs (db.docs .posts) = pipeline.run db'.docs (db'.docs .posts) := by
      rw [hposts]
      exact pipeline_run_like h.users _
    refine ⟨?_, fun rows => ?_⟩
    · simp only [Query.error?, hrun]
    · show pipeline.Returns db.docs (db.docs .posts) rows ∧
        Readable rows ↔ pipeline.Returns db'.docs (db'.docs .posts) rows ∧ Readable rows
      unfold Pipeline.Returns
      rw [hrun]

/-- A registration, with one password or another. -/
theorem execute_insert_like (l l' : Request) (hw : w.Like w') {user : UserCreate} {password : String}
    (hp : 6 ≤ user.password.length ↔ 6 ≤ password.length) (created_at : Nat) :
    Option.Rel (fun x x' => x.1.Like x'.1 ∧ (x.2 : Except PyError ObjectId) = x'.2)
      (execute ω l (.insert_one .users (user.model_dump ++ [("created_at", .date created_at)])) w)
      (execute ω l' (.insert_one .users
        ({ user with password := password }.model_dump ++ [("created_at", .date created_at)])) w') := by
  have hrel := hw.db.insert_user hp ω.id created_at
  simp only [execute]
  rw [hw.db.issued]
  split_ifs
  · exact .none
  · generalize w.db.insert_one .users ω.id _ = y at hrel
    generalize w'.db.insert_one .users ω.id _ = y' at hrel
    cases hrel with
    | none => exact .some ⟨hw, rfl⟩
    | some hdb => exact .some ⟨hw.withDb hdb, rfl⟩

/-- The scan goes the same way in both worlds. -/
theorem loopStep_like (l l' : Request) (hw : w.Like w') (prefix_ : String) (aux : Option Scan)
    (outcome : Outcome) :
    Option.Rel (fun x x' => x.1.Like x'.1 ∧ x.2 = x'.2) (loopStep l prefix_ aux outcome w)
      (loopStep l' prefix_ aux outcome w') := by
  have hnext : ∀ sc, (w.delNext sc).Like (w'.delNext sc) := by
    intro sc
    unfold World.delNext
    cases sc.batch with
    | nil => exact hw
    | cons key rest => exact hw.withRedis (by rw [hw.redis])
  have hfail : ∀ {w₁ w₁' : World}, w₁.Like w₁' → (w₁.fail l prefix_).Like (w₁'.fail l' prefix_) :=
    fun h => ⟨h.db, h.redis, h.now, h.responses⟩
  -- both scans begin on the same store and stay in step
  have hscan : aux.getD (Scan.begin_ w.redis) = aux.getD (Scan.begin_ w'.redis) := by
    rw [hw.redis]
  unfold loopStep
  simp only
  rw [hscan]
  generalize aux.getD (Scan.begin_ w'.redis) = sc
  rcases outcome with ω | ⟨applied, ω⟩
  · have hadmits : sc.Admits w.redis w.now prefix_ ω.keys ω.last ↔
        sc.Admits w'.redis w'.now prefix_ ω.keys ω.last := by
      rw [hw.redis, hw.now]
    simp only [hadmits]
    split_ifs
    · exact .some ⟨hnext sc, rfl⟩
    · exact .some ⟨hw, rfl⟩
    · exact .some ⟨hw, rfl⟩
    · exact .none
  · simp only
    split_ifs
    · exact .none
    · exact .some ⟨hfail (hnext sc), rfl⟩
    · exact .some ⟨hfail hw, rfl⟩

/-- A call goes the same way in both worlds. -/
theorem execute_like (hw : w.Like w') (hl : l.Like l') (hc : CallBlind l c)
    (hsame : l.reveals = true → SameUsers w.db w'.db c) :
    Option.Rel (fun x x' => x.1.Like x'.1 ∧ AnswerLike l c x.2 x'.2) (execute ω l c w)
      (execute ω l' c w') := by
  cases c with
  | query q =>
    obtain ⟨herror, hreturns⟩ := query_like hw.db hc hsame
    simp only [execute]
    rw [← herror]
    cases q.error? w.db with
    | some e => exact .some ⟨hw, rfl⟩
    | none =>
      simp only [hreturns]
      split_ifs
      · exact .some ⟨hw, rfl⟩
      · exact .none
  | find_one coll filter =>
    refine .some ⟨hw, ?_⟩
    cases coll with
    | users => exact readOne_like (findOne_like hc hw.db.users) hsame
    | posts =>
      show readOne _ = readOne _
      rw [docs_like hw.db (by decide)]
    | messages =>
      show readOne _ = readOne _
      rw [docs_like hw.db (by decide)]
  | insert_one coll doc =>
    -- the insert of a user is not blind: it is compared on its own
    have hcoll : coll ≠ .users := by
      rintro rfl
      exact hc
    have hrel := hw.db.insert_one hcoll ω.id doc
    simp only [execute]
    rw [hw.db.issued]
    split_ifs
    · exact .none
    · generalize w.db.insert_one coll ω.id doc = y at hrel
      generalize w'.db.insert_one coll ω.id doc = y' at hrel
      cases hrel with
      | none => exact .some ⟨hw, rfl⟩
      | some hdb => exact .some ⟨hw.withDb hdb, rfl⟩
  | update_one coll filter update =>
    have hrel : Option.Rel (fun x x' => x.1 = x'.1 ∧ Db.Like x.2 x'.2)
        (w.db.update_one coll filter update) (w'.db.update_one coll filter update) := by
      cases coll with
      | users =>
        obtain ⟨hfilter, fs, rfl, hfs⟩ := hc
        exact hw.db.update_users hfilter hfs
      | posts => exact hw.db.update_other (by decide) filter update
      | messages => exact hw.db.update_other (by decide) filter update
    simp only [execute]
    generalize w.db.update_one coll filter update = y at hrel
    generalize w'.db.update_one coll filter update = y' at hrel
    cases hrel with
    | none => exact .some ⟨hw, rfl⟩
    | some hab =>
      obtain ⟨hn, hdb⟩ := hab
      exact .some ⟨hw.withDb hdb, congrArg Except.ok hn⟩
  | delete_one coll filter =>
    have hrel : (w.db.delete_one coll filter).1 = (w'.db.delete_one coll filter).1 ∧
        (w.db.delete_one coll filter).2.Like (w'.db.delete_one coll filter).2 := by
      cases coll with
      | users => exact hw.db.delete_users hc
      | posts => exact hw.db.delete_other (by decide) filter
      | messages => exact hw.db.delete_other (by decide) filter
    exact .some ⟨hw.withDb hrel.2, congrArg Except.ok hrel.1⟩
  | get key =>
    refine .some ⟨hw, ?_⟩
    show Except.ok _ = Except.ok _
    rw [hw.redis, hw.now]
  | setex key ttl value =>
    have hput : w.redis.put w.now key value (some (ttl * 1000)) l =
        w'.redis.put w'.now key value (some (ttl * 1000)) l' := by
      rw [hw.redis, hw.now, hl.eq hc]
    exact .some ⟨hw.withRedis hput, rfl⟩
  | delete_scanned prefix_ => exact .none
  | incr key =>
    have hlookup : w.redis.lookup w.now key = w'.redis.lookup w'.now key := by
      rw [hw.redis, hw.now]
    have hput : w.redis.put w.now key (.int 1) none l = w'.redis.put w'.now key (.int 1) none l' := by
      rw [hw.redis, hw.now, hl.eq hc]
    simp only [execute]
    rw [hlookup]
    cases w'.redis.lookup w'.now key with
    | none => exact .some ⟨hw.withRedis hput, rfl⟩
    | some e =>
      have hchange : ∀ f, w.redis.change key f = w'.redis.change key f := by
        intro f
        rw [hw.redis]
      cases hvalue : e.value with
      | int n =>
        simp only [hvalue]
        exact .some ⟨hw.withRedis (hchange _), rfl⟩
      | _ =>
        simp only [hvalue]
        exact .some ⟨hw, rfl⟩
  | expire key ttl =>
    have hchange : w.redis.change key (renew w.now ttl) = w'.redis.change key (renew w'.now ttl) := by
      rw [hw.redis, hw.now]
    exact .some ⟨hw.withRedis hchange, rfl⟩
  | utcnow =>
    simp only [execute, hw.now]
    exact .some ⟨hw, answerLike_refl _⟩
  | time => exact .some ⟨hw, congrArg Except.ok hw.now⟩

/-! ## Steps of calls -/

/-- The two steps of a call end alike. -/
theorem exec_like (hw : w.Like w') (hl : l.Like l') (hc : CallBlind l c)
    (hsame : l.reveals = true → SameUsers w.db w'.db c) {aux : Option Scan} {outcome : Outcome}
    {w₁ w₁' : World} {y y' : Option Scan ⊕ Except PyError c.Answer}
    (h : exec l c aux outcome w = some (w₁, y)) (h' : exec l' c aux outcome w' = some (w₁', y')) :
    w₁.Like w₁' ∧ ((∃ sc, y = .inl sc ∧ y' = .inl sc) ∨
      ∃ r r', y = .inr r ∧ y' = .inr r' ∧ AnswerLike l c r r') := by
  by_cases hloop : c.isLoop = true
  · cases c with
    | delete_scanned prefix_ =>
      have hrel := loopStep_like l l' hw prefix_ aux outcome
      have hstep : loopStep l prefix_ aux outcome w = some (w₁, y) := h
      have hstep' : loopStep l' prefix_ aux outcome w' = some (w₁', y') := h'
      rw [hstep, hstep'] at hrel
      cases hrel with
      | some hab =>
        obtain ⟨hw₁, heq⟩ := hab
        refine ⟨hw₁, ?_⟩
        have heq : y = y' := heq
        rw [← heq]
        cases y with
        | inl sc => exact .inl ⟨sc, rfl, rfl⟩
        | inr r => exact .inr ⟨r, r, rfl, rfl, rfl⟩
    | _ => cases hloop
  · have hc' := Bool.not_eq_true _ ▸ hloop
    -- both calls are answered, both raise after taking effect, or both raise before
    have hrel := fun ω => execute_like (ω := ω) hw hl hc hsame
    rcases exec_atomic hc' h with ⟨ω, x, rfl, hx, rfl⟩ | ⟨ω, x, rfl, hx, rfl⟩ | ⟨⟨ω, rfl⟩, rfl, rfl⟩
    · rcases exec_atomic hc' h' with ⟨ω', x', ho, hx', rfl⟩ | ⟨_, _, ho, -⟩ | ⟨⟨_, ho⟩, -⟩ <;> cases ho
      have hstep := hrel ω
      rw [hx, hx'] at hstep
      cases hstep with
      | some hab => exact ⟨hab.1, .inr ⟨_, _, rfl, rfl, hab.2⟩⟩
    · rcases exec_atomic hc' h' with ⟨_, _, ho, -⟩ | ⟨ω', x', ho, hx', rfl⟩ | ⟨⟨_, ho⟩, -⟩ <;> cases ho
      have hstep := hrel ω
      rw [hx, hx'] at hstep
      cases hstep with
      | some hab => exact ⟨hab.1, .inr ⟨_, _, rfl, rfl, answerLike_refl _⟩⟩
    · rcases exec_atomic hc' h' with ⟨_, _, ho, -⟩ | ⟨_, _, ho, -⟩ | ⟨-, rfl, rfl⟩
      · cases ho
      · cases ho
      · exact ⟨hw, .inr ⟨_, _, rfl, rfl, answerLike_refl _⟩⟩

/-- The two registrations end alike. -/
theorem exec_insert_like (hw : w.Like w') {user : UserCreate} {password : String}
    (hp : 6 ≤ user.password.length ↔ 6 ≤ password.length) (created_at : Nat) {outcome : Outcome}
    {w₁ w₁' : World} {r r' : Except PyError ObjectId}
    (h : exec l (.insert_one .users (user.model_dump ++ [("created_at", .date created_at)])) none outcome
      w = some (w₁, .inr r))
    (h' : exec l' (.insert_one .users
      ({ user with password := password }.model_dump ++ [("created_at", .date created_at)])) none outcome
        w' = some (w₁', .inr r')) : w₁.Like w₁' ∧ r = r' := by
  have hrel := fun ω => execute_insert_like (ω := ω) l l' hw hp created_at
  rcases exec_atomic rfl h with ⟨ω, x, rfl, hx, hy⟩ | ⟨ω, x, rfl, hx, hy⟩ | ⟨⟨ω, rfl⟩, rfl, hy⟩
  · rcases exec_atomic rfl h' with ⟨ω', x', ho, hx', hy'⟩ | ⟨_, _, ho, -⟩ | ⟨⟨_, ho⟩, -⟩ <;> cases ho
    have hstep := hrel ω
    rw [hx, hx'] at hstep
    cases hy
    cases hy'
    cases hstep with
    | some hab => exact hab
  · rcases exec_atomic rfl h' with ⟨_, _, ho, -⟩ | ⟨ω', x', ho, hx', hy'⟩ | ⟨⟨_, ho⟩, -⟩ <;> cases ho
    have hstep := hrel ω
    rw [hx, hx'] at hstep
    cases hy
    cases hy'
    cases hstep with
    | some hab => exact ⟨hab.1, rfl⟩
  · rcases exec_atomic rfl h' with ⟨_, _, ho, -⟩ | ⟨_, _, ho, -⟩ | ⟨-, rfl, hy'⟩
    · cases ho
    · cases ho
    · cases hy
      cases hy'
      exact ⟨hw, rfl⟩

end Calls

/-! ## Steps of requests -/

/-- The passwords are accepted, or the same. -/
def SameJudged (password password' : String) : Prop :=
  password' = password ∨ 6 ≤ password.length ∧ 6 ≤ password'.length

/-- The validator takes both passwords or neither. -/
theorem SameJudged.iff {password password' : String} (h : SameJudged password password') :
    6 ≤ password.length ↔ 6 ≤ password'.length := by
  rcases h with rfl | ⟨h, h'⟩
  · exact Iff.rfl
  · exact iff_of_true h h'

/-- Two registrations that differ in the password. -/
theorem like_create_user {user : UserCreate} {password : String} (hp : SameJudged user.password password) :
    (Request.create_user user).Like (.create_user { user with password := password }) := ⟨rfl, hp⟩

section Requests

variable [Bson]

/-- The same request in both runs, or the registrations of a user that is not inserted yet. -/
inductive TaskLike : Task → Task → Prop
  | same {l l' : Request} (hl : l.Like l') {p : Api Reply} (aux : Option Scan) (hblind : Blind l p) :
    TaskLike ⟨l, p, aux⟩ ⟨l', p, aux⟩
  | starts {user : UserCreate} {password : String} (hp : SameJudged user.password password) :
    TaskLike ⟨.create_user user, create_user user, none⟩
      ⟨.create_user { user with password := password }, create_user { user with password := password },
        none⟩
  | inserts {user : UserCreate} {password : String} (hp : SameJudged user.password password)
    (created_at : Nat) :
    TaskLike ⟨.create_user user, insertUser user created_at, none⟩
      ⟨.create_user { user with password := password },
        insertUser { user with password := password } created_at, none⟩

section Steps

variable {w w' w₁ w₁' : World} {t t' u u' : Task} {outcome : Outcome}

/-- The users that a request reads to show them have the same passwords. -/
def DiscreetTask (db db' : Db) (t : Task) : Prop :=
  t.label.reveals = true → ∀ c, t.prog.head? = some c → SameUsers db db' c

/-- Both requests take the same step. -/
theorem TaskLike.step (h : TaskLike t t') (hw : w.Like w') (hdiscreet : DiscreetTask w.db w'.db t)
    (hstep : t.step server outcome w = some (w₁, u))
    (hstep' : t'.step server outcome w' = some (w₁', u')) :
    w₁.Like w₁' ∧ TaskLike u u' := by
  obtain ⟨c, k, hprog, hexec⟩ := Pool.Task.step_eq_some.mp hstep
  obtain ⟨c', k', hprog', hexec'⟩ := Pool.Task.step_eq_some.mp hstep'
  cases h with
  | same hl aux hblind =>
    rename_i l l' p
    have hp : p = .call c k := hprog
    have hp' : p = .call c' k' := hprog'
    rw [hp] at hblind hp'
    cases hp'
    obtain ⟨hc, hindifferent, hrest⟩ := hblind
    have hsame : l.reveals = true → SameUsers w.db w'.db c := by
      intro hreveals
      apply hdiscreet hreveals
      show p.head? = some c
      rw [hp]
      rfl
    have hends : ∀ {y y'}, exec l c aux outcome w = some (w₁, y) →
        exec l' c aux outcome w' = some (w₁', y') →
        w₁.Like w₁' ∧ ((∃ sc, y = .inl sc ∧ y' = .inl sc) ∨
          ∃ r r', y = .inr r ∧ y' = .inr r' ∧ AnswerLike l c r r') := exec_like hw hl hc hsame
    rcases hexec with ⟨sc, hexec, rfl⟩ | ⟨r, hexec, rfl⟩
    · rcases hexec' with ⟨sc', hexec', rfl⟩ | ⟨r', hexec', rfl⟩
      · obtain ⟨hw₁, ⟨_, hy, hy'⟩ | ⟨_, _, hy, -⟩⟩ := hends hexec hexec'
        · cases hy
          cases hy'
          refine ⟨hw₁, .same hl sc ?_⟩
          rw [hp]
          exact ⟨hc, hindifferent, hrest⟩
        · cases hy
      · obtain ⟨-, ⟨_, -, hy'⟩ | ⟨_, _, hy, -⟩⟩ := hends hexec hexec'
        · cases hy'
        · cases hy
    · rcases hexec' with ⟨sc', hexec', rfl⟩ | ⟨r', hexec', rfl⟩
      · obtain ⟨-, ⟨_, hy, -⟩ | ⟨_, _, -, hy', -⟩⟩ := hends hexec hexec'
        · cases hy
        · cases hy'
      · obtain ⟨hw₁, ⟨_, hy, -⟩ | ⟨_, _, hy, hy', hanswer⟩⟩ := hends hexec hexec'
        · cases hy
        · cases hy
          cases hy'
          rw [← hindifferent.eq hanswer]
          exact ⟨hw₁, .same hl none (hrest _)⟩
  | starts hp =>
    rename_i user password
    have hparts := (create_user_eq user).symm.trans hprog
    have hparts' := (create_user_eq { user with password := password }).symm.trans hprog'
    cases hparts
    cases hparts'
    have hends : ∀ {y y'}, exec (.create_user user) .utcnow none outcome w = some (w₁, y) →
        exec (.create_user { user with password := password }) .utcnow none outcome w' = some (w₁', y') →
        w₁.Like w₁' ∧ ((∃ sc, y = .inl sc ∧ y' = .inl sc) ∨ ∃ r r', y = .inr r ∧ y' = .inr r' ∧ r = r') :=
      exec_like (c := .utcnow) hw (like_create_user hp) trivial fun _ => trivial
    rcases hexec with ⟨sc, hexec, -⟩ | ⟨r, hexec, rfl⟩
    · cases isLoop_of_exec_inl hexec
    · rcases hexec' with ⟨sc, hexec', -⟩ | ⟨r', hexec', rfl⟩
      · cases isLoop_of_exec_inl hexec'
      · obtain ⟨hw₁, ⟨_, hy, -⟩ | ⟨_, _, hy, hy', heq⟩⟩ := hends hexec hexec'
        · cases hy
        · cases hy
          cases hy'
          cases heq
          cases r with
          | ok created_at => exact ⟨hw₁, .inserts hp created_at⟩
          | error e => exact ⟨hw₁, .same (like_create_user hp) (p := .raise e) none trivial⟩
  | inserts hp created_at =>
    rename_i user password
    cases hprog
    cases hprog'
    -- what follows the insert does not depend on the user
    have hafter : ∀ r : Except PyError ObjectId, TaskLike
        ⟨.create_user user, (match r with
          | .ok id => afterUserInsert id
          | .error e => Prog.raise (.httpException 400 e.str [])), none⟩
        ⟨.create_user { user with password := password }, (match r with
          | .ok id => afterUserInsert id
          | .error e => Prog.raise (.httpException 400 e.str [])), none⟩ := by
      intro r
      refine .same (like_create_user hp) none ?_
      cases r with
      | ok id => exact blind_afterUserInsert rfl id
      | error e => trivial
    rcases hexec with ⟨sc, hexec, -⟩ | ⟨r, hexec, rfl⟩
    · cases isLoop_of_exec_inl hexec
    · rcases hexec' with ⟨sc, hexec', -⟩ | ⟨r', hexec', rfl⟩
      · cases isLoop_of_exec_inl hexec'
      · obtain ⟨hw₁, heq⟩ := exec_insert_like hw hp.iff created_at hexec hexec'
        refine ⟨hw₁, ?_⟩
        cases heq
        have hlike := hafter r
        cases r with
        | ok id => exact hlike
        | error e => exact hlike

end Steps

/-! ## Runs -/

/-- Two states whose requests and worlds are alike. -/
structure State.Like (s s' : State) : Prop where
  shared : s.shared.Like s'.shared
  tasks : List.Forall₂ TaskLike s.tasks s'.tasks

/-- The actions are the same but for the password of a registration. -/
def Action.Like : Action → Action → Prop
  | .request r, .request r' => r.Like r'
  | a, a' => a = a'

/-- A request that makes a step to show users finds the same passwords in both runs. -/
def Discreet (s : State × State) : Action × Action → Prop
  | (.call i _, _) => ∀ t, s.1.tasks[i]? = some t → DiscreetTask s.1.shared.db s.2.shared.db t
  | _ => True

theorem taskLike_handle {r r' : Request} (h : r.Like r') :
    TaskLike ⟨r, handle r, none⟩ ⟨r', handle r', none⟩ := by
  by_cases hr : r.registers = false
  · rw [← h.eq hr]
    exact .same (h.eq hr ▸ h) none (handle_blind hr)
  · cases r with
    | create_user user =>
      cases r' with
      | create_user user' =>
        obtain ⟨huser, hp⟩ := h
        rw [huser]
        exact .starts hp
      | _ => cases h
    | _ => exact absurd rfl hr

/-- A step taken on both sides keeps the states alike. -/
theorem State.Like.step {s s' : State × State} {a : Action × Action} (h : s.1.Like s.2)
    (hlike : a.1.Like a.2) (hdiscreet : Discreet s a) (hstep : Runs.both MongoApi.step s a = some s') :
    s'.1.Like s'.2 := by
  obtain ⟨s₁, s₂⟩ := s
  obtain ⟨s₁', s₂'⟩ := s'
  obtain ⟨hfirst, hsecond⟩ := Runs.both_eq_some.mp hstep
  obtain ⟨a, a'⟩ := a
  cases a with
  | request r =>
    cases a' with
    | request r' =>
      cases hfirst
      cases hsecond
      exact ⟨h.shared, List.rel_append h.tasks (.cons (taskLike_handle hlike) .nil)⟩
    | _ => cases hlike
  | call i outcome =>
    cases hlike
    obtain ⟨t, t', u, u', hi, htask, hu, hu', htasks⟩ := Pool.advance_both h.tasks hfirst hsecond
    obtain ⟨hshared, hu⟩ := htask.step h.shared (hdiscreet t hi) hu hu'
    exact ⟨hshared, htasks hu⟩
  | finish i =>
    cases hlike
    obtain ⟨⟨l, r, c⟩, hretire, rfl⟩ := Option.map_eq_some_iff.mp hfirst
    obtain ⟨⟨l', r', c'⟩, hretire', rfl⟩ := Option.map_eq_some_iff.mp hsecond
    obtain ⟨t, t', htask, hout, hout', hshared, hshared', htasks⟩ :=
      Pool.retire_both h.tasks hretire hretire'
    -- a request that has ended is past its insert, so both give the same response
    have hr : r = r' := by
      cases htask with
      | same hl aux hblind => exact Option.some.inj (hout.symm.trans hout')
      | starts hp => cases hout
      | inserts hp created_at => cases hout
    have hworld : c.shared.Like c'.shared := by
      rw [hshared, hshared']
      exact h.shared
    refine ⟨⟨hworld.db, hworld.redis, hworld.now, ?_⟩, htasks⟩
    show (c.shared.answered ++ [(l, r)]).map Prod.snd = (c'.shared.answered ++ [(l', r')]).map Prod.snd
    rw [List.map_append, List.map_append, hworld.responses, hr]
    rfl
  | tick ms =>
    cases hlike
    cases hfirst
    cases hsecond
    exact ⟨⟨h.shared.db, h.shared.redis, congrArg (· + ms) h.shared.now, h.shared.responses⟩, h.tasks⟩

/-- **Passwords.** Two runs with the same choices, from databases and with registrations that differ
only in passwords, give the same responses, if whenever a request reads users to show them these have
the same passwords in both runs. -/
theorem responses_equal {db db' : Db} (hdb : db.Like db') {as : List (Action × Action)}
    (hlike : ∀ a ∈ as, a.1.Like a.2) {s s' : State}
    (hrun : Runs.exec step (State.init db) (as.map Prod.fst) = some s)
    (hrun' : Runs.exec step (State.init db') (as.map Prod.snd) = some s')
    (hdiscreet : Runs.Meets (Runs.both step) Discreet (State.init db, State.init db') as) :
    s.shared.answered.map Prod.snd = s'.shared.answered.map Prod.snd := by
  have hboth : Runs.exec (Runs.both step) (State.init db, State.init db') as = some (s, s') :=
    Runs.exec_both.mpr ⟨hrun, hrun'⟩
  have hinit : (State.init db).Like (State.init db') := ⟨⟨hdb, rfl, rfl, rfl⟩, .nil⟩
  have hmeets := hdiscreet.and (Runs.meets_of_mem hlike _)
  have hstate : s.Like s' := Runs.exec_invariant (I := fun s : State × State => s.1.Like s.2)
    (fun s a s' h hok hstep => h.step hok.2 hok.1 hstep) hinit hmeets hboth
  exact hstate.shared.responses

end Requests

theorem Action.Like.refl (a : Action) : a.Like a := by
  cases a with
  | request r =>
    cases r with
    | create_user user => exact ⟨rfl, .inl rfl⟩
    | _ => rfl
  | _ => rfl

instance (s : State × State) : (a : Action × Action) → Decidable (Discreet s a)
  | (.call i _, _) => decidable_of_iff (∀ t ∈ s.1.tasks[i]?, t.label.reveals = true →
      ∀ c ∈ t.prog.head?, SameUsers s.1.shared.db s.2.shared.db c)
        ⟨fun h t ht hl c hc => h t ht hl c hc, fun h t ht hl c hc => h t ht hl c hc⟩
  | (.request _, _) | (.finish _, _) | (.tick _, _) => .isTrue trivial

open scoped Hex

/-- The next call is answered, with this id where it inserts; a scan finds no key. -/
def answerEmpty (i id : Nat) : Action := .call i (.ok ⟨.ofNat id, [], [], true⟩)

def ann : UserCreate := ⟨"ann", "ann@example.com", "letmein", "Ann", "Green", some 20, []⟩

/-- After Bob is stored, Ann registers, he writes a post, and Ann is listed. -/
def afterBob : List Action :=
  [answerEmpty 0 0, answerEmpty 0 0,
    .request (.create_user ann), answerEmpty 1 1, answerEmpty 1 1, answerEmpty 1 1, answerEmpty 1 1,
    answerEmpty 1 1, .finish 1,
    .request (.create_post ⟨(ObjectId.ofNat 0).hex, "hello", []⟩), answerEmpty 1 2, answerEmpty 1 2,
    answerEmpty 1 2, answerEmpty 1 2, answerEmpty 1 2, answerEmpty 1 2, answerEmpty 1 2,
    answerEmpty 1 2, .finish 1,
    .request (.get_users (some "ann") none), answerEmpty 1 3,
    .call 1 (.ok ⟨.ofNat 3, [("_id", .oid (.ofNat 1)) :: (ann.model_dump ++ [("created_at", .date 0)])],
      [], true⟩), answerEmpty 1 3, .finish 1]

/-- Bob registers with this password. -/
def withBob (password : String) : List Action :=
  .request (.create_user ⟨"bob", "bob@example.com", password, "Bob", "Brown", some 30, []⟩) :: afterBob

/-- The passwords that are stored. -/
def passwords (s : State) : List (Option Value) := (s.shared.db.docs .users).map (·.get "password")

theorem responses_equal_bob : ∃ s s',
    Runs.exec step (State.init Db.empty) (withBob "secret1") = some s ∧
    Runs.exec step (State.init Db.empty) (withBob "secret2") = some s' ∧
    passwords s = [some (.str "secret1"), some (.str "letmein")] ∧
    passwords s' = [some (.str "secret2"), some (.str "letmein")] ∧
    s.shared.answered.length = 3 ∧
    s.shared.answered.map Prod.snd = s'.shared.answered.map Prod.snd := by
  have hstored : (Runs.exec step (State.init Db.empty) (withBob "secret1")).map
      (fun s => (passwords s, s.shared.answered.length)) =
        some ([some (.str "secret1"), some (.str "letmein")], 3) := by decide +kernel
  have hstored' : (Runs.exec step (State.init Db.empty) (withBob "secret2")).map passwords =
      some [some (.str "secret2"), some (.str "letmein")] := by decide +kernel
  obtain ⟨s, hrun, hs⟩ := Option.map_eq_some_iff.mp hstored
  obtain ⟨s', hrun', hs'⟩ := Option.map_eq_some_iff.mp hstored'
  obtain ⟨hpasswords, hlength⟩ := Prod.mk.inj hs
  refine ⟨s, s', hrun, hrun', hpasswords, hs', hlength, ?_⟩
  have hlike : ∀ a ∈ (withBob "secret1").zip (withBob "secret2"), a.1.Like a.2 := by
    -- after the registration both clients do the same
    have hzip : afterBob.zip afterBob = afterBob.map fun a => (a, a) := by
      simpa only [List.map_id, id] using List.zip_map' (f := id) (g := id) (l := afterBob)
    intro a ha
    rcases List.mem_cons.mp ha with rfl | ha
    · exact ⟨rfl, .inr ⟨by decide, by decide⟩⟩
    · have hrest : a ∈ afterBob.zip afterBob := ha
      rw [hzip] at hrest
      obtain ⟨b, -, rfl⟩ := List.mem_map.mp hrest
      exact .refl b
  have hdiscreet : Runs.Meets (Runs.both step) Discreet (State.init Db.empty, State.init Db.empty)
      ((withBob "secret1").zip (withBob "secret2")) := by decide +kernel
  exact responses_equal ⟨rfl, rfl, rfl, rfl⟩ hlike hrun hrun' hdiscreet

/-- A user is registered, and the registration is answered. -/
def registerBob (password : String) : List Action :=
  [.request (.create_user ⟨"bob", "bob@example.com", password, "Bob", "Brown", some 30, []⟩),
    .call 0 (.ok ⟨.ofNat 0, [], [], false⟩), .call 0 (.ok ⟨.ofNat 0, [], [], false⟩),
    .call 0 (.ok ⟨.ofNat 0, [], [], true⟩), .call 0 (.ok ⟨.ofNat 0, [], [], true⟩),
    .call 0 (.ok ⟨.ofNat 0, [], [], true⟩), .finish 0]

/-- The password in a response. -/
def shown : Except PyError Reply → Option Value
  | .ok ⟨_, .obj d⟩ => Doc.get d "password"
  | _ => none

/-- The response to a registration carries the password. -/
theorem registration_shows_password : ∃ s s',
    Runs.exec step (State.init Db.empty) (registerBob "secret1") = some s ∧
    Runs.exec step (State.init Db.empty) (registerBob "secret2") = some s' ∧
    s.shared.answered.map Prod.snd ≠ s'.shared.answered.map Prod.snd := by
  have hfirst : (Runs.exec step (State.init Db.empty) (registerBob "secret1")).map
      (fun s => (s.shared.answered.map Prod.snd).map shown) = some [some (.str "secret1")] := by
    decide +kernel
  have hsecond : (Runs.exec step (State.init Db.empty) (registerBob "secret2")).map
      (fun s => (s.shared.answered.map Prod.snd).map shown) = some [some (.str "secret2")] := by
    decide +kernel
  obtain ⟨s, hrun, hs⟩ := Option.map_eq_some_iff.mp hfirst
  obtain ⟨s', hrun', hs'⟩ := Option.map_eq_some_iff.mp hsecond
  refine ⟨s, s', hrun, hrun', fun heq => ?_⟩
  rw [heq, hs'] at hs
  exact absurd hs (by decide)

end SocialNetwork.MongoApi

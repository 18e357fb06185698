import SocialNetwork.Lib.Marks
import SocialNetwork.MongoApi.RefinementTheorems
import SocialNetwork.MongoApi.Trail

/-!
# Likes and comments

`history` lists the operations that the steps of a run have applied to posts. The likes of a post are
the set that its likes and unlikes leave (`Marks.replay`), and its comments are those of its history,
in order.
-/

namespace SocialNetwork.MongoApi

open DocStore Marks

/-! ## History -/

/-- An operation that has been applied to a post, and the request that asked for it. -/
structure Applied where
  request : Request
  post : ObjectId
  op : PostOp
deriving DecidableEq

/-- The operation that a step applies: the update takes effect and has matched a post. -/
def applied (s : State) : Action → List Applied
  | .call i outcome =>
    match s.tasks[i]? with
    | none => []
    | some task =>
      match task.prog.head?, outcome.choice? with
      | some (.update_one .posts filter update), some _ =>
        match s.shared.db.update_one .posts filter update, idOf filter, PostOp.of? update with
        | some (1, _), [post], some op => [⟨task.label, post, op⟩]
        | _, _, _ => []
      | _, _ => []
  | _ => []

/-- What a run does to the documents, call by call. -/
def history [Bson] (s : State) (as : List Action) : List Applied := Runs.outputs step applied s as

/-- The operations on one post. -/
def opsOn (post : ObjectId) (h : List Applied) : List PostOp :=
  (h.filter fun e => e.post = post).map fun e => e.op

namespace PostOp

/-- Whom the operation adds to the likes or removes from them. -/
def mark? : PostOp → Option (Mark ObjectId)
  | like user => some (.add user)
  | unlike user => some (.remove user)
  | .comment _ => none

def comment? : PostOp → Option Value
  | .comment c => some c
  | _ => none

/-- The field that the operation changes. -/
def field : PostOp → String
  | like _ | unlike _ => "likes"
  | .comment _ => "comments"

end PostOp

/-- The last of the likes and unlikes of the user is a like. -/
def Likes (user : ObjectId) (ops : List PostOp) : Prop := Marked user (ops.filterMap PostOp.mark?)

/-- A like of a user who likes the post, or an unlike of one who does not. -/
def Repeats (ops : List PostOp) (op : PostOp) : Prop :=
  ∃ user, op = .like user ∧ Likes user ops ∨ op = .unlike user ∧ ¬ Likes user ops

/-! ## Posts -/

/-- The document of a post with its likes and comments. -/
def postWith (id author : ObjectId) (post : PostCreate) (created_at : Nat) (likes : List ObjectId)
    (comments : List Value) : Doc :=
  [("_id", .oid id), ("author_id", .oid author), ("content", .str post.content),
    ("tags", strings post.tags), ("likes", .arr (likes.map .oid)), ("comments", .arr comments),
    ("created_at", .date created_at)]

/-- The post after the operations. -/
def postAfter (id author : ObjectId) (post : PostCreate) (created_at : Nat) (ops : List PostOp) : Doc :=
  postWith id author post created_at (replay (ops.filterMap PostOp.mark?))
    (ops.filterMap PostOp.comment?)

section Posts

variable {id author : ObjectId} {post : PostCreate} {created_at : Nat} {d d' : Doc} {op : PostOp}

/-- A new post has no likes and no comments. -/
theorem postAfter_nil : postAfter id author post created_at [] =
    ("_id", .oid id) :: postDoc author post created_at := rfl

/-- An operation changes its own field only. -/
theorem PostOp.get_apply (h : op.update.apply d = some d') {f : String} (hf : f ≠ op.field) :
    d'.get f = d.get f := by
  cases op with
  | like user =>
    simp only [PostOp.update, Update.apply_addToSet] at h
    rw [arrayField_eq_some h]
    exact Doc.get_set_of_ne d _ hf
  | unlike user =>
    simp only [PostOp.update, Update.apply_pull] at h
    rcases pullField_eq_some h with rfl | rfl
    · rfl
    · exact Doc.get_set_of_ne d _ hf
  | comment c =>
    simp only [PostOp.update, Update.apply_push] at h
    rw [arrayField_eq_some h]
    exact Doc.get_set_of_ne d _ hf

/-- One operation, on the likes and on the comments. -/
theorem apply_postWith {likes : List ObjectId} {comments : List Value}
    (h : op.update.apply (postWith id author post created_at likes comments) = some d') :
    d' = postWith id author post created_at
      ((op.mark?.map fun m => m.apply likes).getD likes) (comments ++ op.comment?.toList) := by
  cases op with
  | like user =>
    have hadd := addToSetOp_map Value.oid_injective likes user
    simp only [PostOp.update, Update.apply_addToSet] at h
    rw [arrayField_eq_some h]
    show Doc.set _ "likes" (.arr (addToSetOp (likes.map .oid) (.oid user))) = _
    rw [hadd]
    simp [postWith, Doc.set, PostOp.mark?, PostOp.comment?, Mark.apply]
  | unlike user =>
    have hpull := pullOp_map Value.oid_injective likes user
    simp only [PostOp.update, Update.apply_pull] at h
    -- the likes are there, so `$pull` sets them
    have hset : arrayField pullOp (postWith id author post created_at likes comments)
        ("likes", .oid user) = some d' := h
    rw [arrayField_eq_some hset]
    show Doc.set _ "likes" (.arr (pullOp (likes.map .oid) (.oid user))) = _
    rw [hpull]
    simp [postWith, Doc.set, PostOp.mark?, PostOp.comment?, Mark.apply]
  | comment c =>
    simp only [PostOp.update, Update.apply_push] at h
    rw [arrayField_eq_some h]
    show Doc.set _ "comments" (.arr (pushOp comments c)) = _
    simp [postWith, Doc.set, PostOp.mark?, PostOp.comment?, pushOp]

/-- The likes and the comments after one more operation. -/
theorem replay_marks (ops : List PostOp) (op : PostOp) :
    replay ((ops ++ [op]).filterMap PostOp.mark?) =
      (op.mark?.map fun m => m.apply (replay (ops.filterMap PostOp.mark?))).getD
        (replay (ops.filterMap PostOp.mark?)) := by
  rw [List.filterMap_append]
  cases op with
  | like user => exact replay_append _ _
  | unlike user => exact replay_append _ _
  | comment c => exact congrArg replay (List.append_nil _)

theorem comments_append (ops : List PostOp) (op : PostOp) :
    (ops ++ [op]).filterMap PostOp.comment? =
      ops.filterMap PostOp.comment? ++ op.comment?.toList := by
  rw [List.filterMap_append]
  cases op <;> rfl

/-- One more operation is applied. -/
theorem apply_postAfter {ops : List PostOp}
    (h : op.update.apply (postAfter id author post created_at ops) = some d') :
    d' = postAfter id author post created_at (ops ++ [op]) := by
  rw [apply_postWith h, postAfter, replay_marks, comments_append]

/-- An operation that repeats what is the case changes nothing. -/
theorem postAfter_repeats {ops : List PostOp} (h : Repeats ops op) :
    postAfter id author post created_at (ops ++ [op]) = postAfter id author post created_at ops := by
  unfold postAfter
  rw [replay_marks, comments_append]
  obtain ⟨user, ⟨rfl, hlikes⟩ | ⟨rfl, hlikes⟩⟩ := h
  · have hsame : (Mark.add user).apply (replay (ops.filterMap PostOp.mark?)) =
        replay (ops.filterMap PostOp.mark?) :=
      Mark.apply_eq_self (iff_of_true rfl (mem_replay_iff.mpr hlikes))
    show postWith _ _ _ _ ((Mark.add user).apply _) (_ ++ []) = _
    rw [hsame, List.append_nil]
  · have hsame : (Mark.remove user).apply (replay (ops.filterMap PostOp.mark?)) =
        replay (ops.filterMap PostOp.mark?) :=
      Mark.apply_eq_self (iff_of_false nofun fun hmem => hlikes (mem_replay_iff.mp hmem))
    show postWith _ _ _ _ ((Mark.remove user).apply _) (_ ++ []) = _
    rw [hsame, List.append_nil]

end Posts

/-! ## Steps -/

section Steps

variable {s s' : State} {a : Action} {i : Nat} {outcome : Outcome} {task : Task}

/-- Only the update of a post is an operation on one. -/
theorem applied_other (hi : s.tasks[i]? = some task) {c : Call} (hc : task.prog.head? = some c)
    (hother : ∀ filter update, c ≠ .update_one .posts filter update) :
    applied s (.call i outcome) = [] := by
  simp only [applied, hi, hc]
  split
  · next filter update _ hupdate _ => exact absurd (Option.some.inj hupdate) (hother filter update)
  · rfl

/-- An update that is executed is the one operation of its call. -/
theorem applied_update (hi : s.tasks[i]? = some task) {id : ObjectId} {op : PostOp}
    (hc : task.prog.head? = some (.update_one .posts (.field "_id" (.oid id)) op.update)) :
    applied s (.call i outcome) =
      match outcome.choice?, s.shared.db.update_one .posts (.field "_id" (.oid id)) op.update with
      | some _, some (1, _) => [⟨task.label, id, op⟩]
      | _, _ => [] := by
  have hid : idOf (.field "_id" (.oid id)) = [id] := rfl
  simp only [applied, hi, hc]
  cases outcome.choice? with
  | none => rfl
  | some ω =>
    simp only [hid, PostOp.of?_update]
    cases s.shared.db.update_one .posts (.field "_id" (.oid id)) op.update with
    | none => rfl
    | some result =>
      obtain ⟨n, db⟩ := result
      rcases n with _ | _ | n <;> rfl

/-- An update takes effect or does nothing. -/
theorem exec_update {l : Request} {coll : Coll} {filter : Filter} {update : Update}
    {aux : Option KeyValue.Scan} {w w' : World} {y : Option KeyValue.Scan ⊕ Except PyError Nat}
    (h : exec l (.update_one coll filter update) aux outcome w = some (w', y)) :
    (w'.db = w.db ∧ (outcome.choice? = none ∨ w.db.update_one coll filter update = none)) ∨
      ∃ ω n, outcome.choice? = some ω ∧ w.db.update_one coll filter update = some (n, w'.db) := by
  have hexecute : ∀ ω x, execute ω l (.update_one coll filter update) w = some (w', x) →
      (w'.db = w.db ∧ w.db.update_one coll filter update = none) ∨
        ∃ n, w.db.update_one coll filter update = some (n, w'.db) := by
    intro ω x hx
    simp only [execute] at hx
    split at hx
    · next n db hdb =>
      cases hx
      exact .inr ⟨n, hdb⟩
    · next hdb =>
      cases hx
      exact .inl ⟨rfl, hdb⟩
  rcases exec_atomic rfl h with ⟨ω, x, rfl, hx, -⟩ | ⟨ω, x, rfl, hx, -⟩ | ⟨⟨ω, rfl⟩, rfl, -⟩
  · rcases hexecute ω x hx with ⟨hdb, hnone⟩ | ⟨n, hdb⟩
    · exact .inl ⟨hdb, .inr hnone⟩
    · exact .inr ⟨ω, n, rfl, hdb⟩
  · rcases hexecute ω x hx with ⟨hdb, hnone⟩ | ⟨n, hdb⟩
    · exact .inl ⟨hdb, .inr hnone⟩
    · exact .inr ⟨ω, n, rfl, hdb⟩
  · exact .inl ⟨rfl, .inl rfl⟩

/-- What a step does to the posts: nothing, a new one, or one operation on one of them. -/
inductive PostStep [Bson] (s s' : State) : List Applied → Prop
  | same (h : s'.shared.db.docs .posts = s.shared.db.docs .posts) : PostStep s s' []
  | created (id : ObjectId) (doc : Doc) (hnew : id ∉ s.shared.db.issued)
    (h : s'.shared.db.docs .posts = s.shared.db.docs .posts ++ [("_id", .oid id) :: doc]) :
    PostStep s s' []
  | applied (e : Applied) (l₁ : List Doc) (d : Doc) (l₂ : List Doc) (d' : Doc)
    (hasks : e.request.Asks e.post e.op) (hbefore : s.shared.db.docs .posts = l₁ ++ d :: l₂)
    (hid : d.get "_id" = some (.oid e.post)) (happly : e.op.update.apply d = some d')
    (hafter : s'.shared.db.docs .posts = l₁ ++ d' :: l₂)
    (hother : ∀ c, c ≠ .posts → s'.shared.db.docs c = s.shared.db.docs c) : PostStep s s' [e]

variable [Bson]

/-- The update of a post. -/
theorem postStep_update {id : ObjectId} {op : PostOp} (hi : s.tasks[i]? = some task)
    (hc : task.prog.head? = some (.update_one .posts (.field "_id" (.oid id)) op.update))
    (hasks : task.label.Asks id op) {aux : Option KeyValue.Scan}
    {y : Option KeyValue.Scan ⊕ Except PyError Nat}
    (hexec : exec task.label (.update_one .posts (.field "_id" (.oid id)) op.update) aux outcome
      s.shared = some (s'.shared, y)) : PostStep s s' (applied s (.call i outcome)) := by
  rw [applied_update hi hc]
  rcases exec_update hexec with ⟨hdb, hnone⟩ | ⟨ω, n, hω, hdb⟩
  · have hops : (match outcome.choice?,
        s.shared.db.update_one .posts (.field "_id" (.oid id)) op.update with
      | some _, some (1, _) => [(⟨task.label, id, op⟩ : Applied)]
      | _, _ => []) = [] := by
      rcases hnone with hnone | hnone
      · rw [hnone]
      · rw [hnone]
        cases outcome.choice? <;> rfl
    rw [hops]
    exact .same (by rw [hdb])
  · rw [hω, hdb]
    obtain ⟨hdocs, hother, -⟩ := Db.docs_update_one hdb
    rcases hdocs with ⟨l₁, d, l₂, d', hbefore, hholds, happly, rfl, hafter, -⟩ | ⟨-, rfl, hsame⟩
    -- the one post with the id has been found and updated
    · have hd : d ∈ s.shared.db.docs .posts := by
        rw [hbefore]
        exact Lists.mem_middle.mpr (.inl rfl)
      have hid : d.get "_id" = some (.oid id) :=
        Validated.id_of_holds (c := s.shared.db.coll .posts) hd hholds
      exact .applied ⟨task.label, id, op⟩ l₁ d l₂ d' hasks hbefore hid happly hafter hother
    · exact .same hsame

/-- **Steps.** -/
theorem postStep (htasks : ∀ task ∈ s.tasks, KeepsTrail task) (h : step s a = some s') :
    PostStep s s' (applied s a) := by
  cases a with
  | request r =>
    cases h
    exact .same rfl
  | finish i =>
    obtain ⟨l₁, task, l₂, r, -, -, rfl⟩ := finish_eq_some h
    exact .same rfl
  | tick ms =>
    cases h
    exact .same rfl
  | call i outcome =>
    obtain ⟨l₁, task, l₂, task', c, k, y, hi, -, -, hprog, hexec, -⟩ := call_eq_some h
    obtain ⟨g, hobeys, -⟩ := htasks task (List.mem_of_getElem? hi)
    have hc : task.prog.head? = some c := by
      rw [hprog]
      rfl
    have hallows : g.allows task.label c := hobeys.head_ok hc
    by_cases hupdate : ∃ filter update, c = .update_one .posts filter update
    · obtain ⟨filter, update, rfl⟩ := hupdate
      obtain ⟨id, rfl, hop⟩ := hallows
      obtain ⟨op, hasks, rfl⟩ := hop rfl
      exact postStep_update hi hc hasks hexec
    · rw [applied_other hi hc fun filter update heq => hupdate ⟨filter, update, heq⟩]
      rcases exec_effect hexec with ⟨-, hdb⟩ | ⟨x, -, heffect⟩
      · exact .same (by rw [hdb])
      · generalize hdb : s'.shared.db = db' at heffect
        cases heffect with
        | same => exact .same (by rw [hdb])
        | @insert coll doc id _ _ hnew hinsert =>
          obtain ⟨hdocs, hother, -⟩ := Db.docs_insert_one hinsert
          by_cases hcoll : coll = .posts
          · subst hcoll
            exact .created id doc hnew (by rw [hdb, hdocs])
          · exact .same (by rw [hdb, hother .posts (Ne.symm hcoll)])
        | @update coll filter update _ _ _ hresult =>
          have hcoll : coll ≠ .posts := by
            rintro rfl
            exact hupdate ⟨filter, update, rfl⟩
          exact .same (by rw [hdb, (Db.docs_update_one hresult).2.1 .posts (Ne.symm hcoll)])
        | @delete coll filter =>
          -- no endpoint deletes posts
          have hcoll : coll ≠ .posts := hallows
          obtain ⟨-, hother, -⟩ := Db.docs_delete_one s.shared.db coll filter
          exact .same (by rw [hdb, hother .posts (Ne.symm hcoll)])

end Steps

/-! ## The post over a run -/

section Runs

variable {s s' : State} {a : Action} {id author : ObjectId} {post : PostCreate} {created_at : Nat}

theorem opsOn_append (post : ObjectId) (h h' : List Applied) :
    opsOn post (h ++ h') = opsOn post h ++ opsOn post h' := by
  unfold opsOn
  rw [List.filter_append, List.map_append]

variable [Bson]

/-- The operations of a step are applied to the post that they are about, and to no other. -/
theorem postAfter_step (htasks : ∀ task ∈ s.tasks, KeepsTrail task) (h : step s a = some s')
    {ops : List PostOp} (hmem : postAfter id author post created_at ops ∈ s.shared.db.docs .posts) :
    postAfter id author post created_at (ops ++ opsOn id (applied s a)) ∈
      s'.shared.db.docs .posts := by
  have hstep := postStep htasks h
  generalize applied s a = es at hstep
  cases hstep with
  | same hsame =>
    rw [show opsOn id [] = [] from rfl, List.append_nil, hsame]
    exact hmem
  | created _ doc _ hdocs =>
    rw [show opsOn id [] = [] from rfl, List.append_nil, hdocs]
    exact List.mem_append_left _ hmem
  | applied e l₁ d l₂ d' hasks hbefore hid happly hafter hother =>
    rw [hafter]
    have hd : d ∈ s.shared.db.docs .posts := by
      rw [hbefore]
      exact Lists.mem_middle.mpr (.inl rfl)
    by_cases hpost : e.post = id
    · -- the post is the one that is updated, since it has its id
      have heq : d = postAfter id author post created_at ops := by
        refine List.inj_on_of_nodup_map (s.shared.db.coll .posts).nodup hd hmem ?_
        rw [hid, hpost]
        rfl
      rw [heq] at happly
      have hops : opsOn id [e] = [e.op] := by
        unfold opsOn
        rw [List.filter_cons_of_pos (by simpa using hpost)]
        rfl
      rw [hops, ← apply_postAfter happly]
      exact Lists.mem_middle.mpr (.inl rfl)
    · have hops : opsOn id [e] = [] := by
        unfold opsOn
        rw [List.filter_cons_of_neg (by simpa using hpost)]
        rfl
      rw [hops, List.append_nil]
      rw [hbefore] at hmem
      rcases Lists.mem_middle.mp hmem with heq | hmem
      · rw [← heq] at hid
        exact absurd (Value.oid.inj (Option.some.inj hid)).symm hpost
      · exact Lists.mem_middle.mpr (.inr hmem)

/-- Every operation of a step is asked for. -/
theorem asks_step (htasks : ∀ task ∈ s.tasks, KeepsTrail task) (h : step s a = some s') :
    ∀ e ∈ applied s a, e.request.Asks e.post e.op := by
  have hstep := postStep htasks h
  generalize applied s a = es at hstep
  intro e he
  cases hstep with
  | same => cases he
  | created => cases he
  | applied e' l₁ d l₂ d' hasks =>
    rw [List.mem_singleton.mp he]
    exact hasks

/-- An operation is on a post that is there. -/
theorem issued_of_applied (htasks : ∀ task ∈ s.tasks, KeepsTrail task) (h : step s a = some s') :
    ∀ e ∈ applied s a, e.post ∈ s.shared.db.issued := by
  have hstep := postStep htasks h
  generalize applied s a = es at hstep
  intro e he
  cases hstep with
  | same => cases he
  | created => cases he
  | applied e' l₁ d l₂ d' _ hbefore hid =>
    rw [List.mem_singleton.mp he]
    refine Db.mem_issued (c := .posts) ?_ hid
    rw [hbefore]
    exact Lists.mem_middle.mpr (.inl rfl)

/-- The step that makes a post gives it a new id, and applies nothing. -/
theorem applied_create (htasks : ∀ task ∈ s.tasks, KeepsTrail task) (h : step s a = some s')
    {doc : Doc}
    (hnew : s'.shared.db.docs .posts = s.shared.db.docs .posts ++ [("_id", .oid id) :: doc]) :
    id ∉ s.shared.db.issued ∧ applied s a = [] := by
  have hstep := postStep htasks h
  generalize applied s a = es at hstep
  cases hstep with
  | same hsame =>
    rw [hsame] at hnew
    cases List.self_eq_append_right.mp hnew
  | created id' doc' hid hdocs =>
    rw [hdocs] at hnew
    obtain ⟨rfl, -⟩ : id' = id ∧ doc' = doc := by simpa using List.append_cancel_left hnew
    exact ⟨hid, rfl⟩
  | applied e l₁ d l₂ d' _ hbefore _ _ hafter =>
    have hlength := congrArg List.length hnew
    rw [hbefore, hafter] at hlength
    simp at hlength

/-- What is true of a post, and of its history, after any run. -/
theorem postAfter_run (htasks : ∀ task ∈ s.tasks, KeepsTrail task)
    (hmem : postAfter id author post created_at [] ∈ s.shared.db.docs .posts) {as : List Action}
    (hrun : Runs.exec step s as = some s') : (∀ task ∈ s'.tasks, KeepsTrail task) ∧
      (∀ e ∈ history s as, e.request.Asks e.post e.op) ∧
      postAfter id author post created_at (opsOn id (history s as)) ∈ s'.shared.db.docs .posts := by
  refine Runs.exec_outputs (I := fun s h => (∀ task ∈ s.tasks, KeepsTrail task) ∧
    (∀ e ∈ h, e.request.Asks e.post e.op) ∧
    postAfter id author post created_at (opsOn id h) ∈ s.shared.db.docs .posts) ?_
    ⟨htasks, nofun, hmem⟩ hrun
  intro s a s' h ⟨htasks, hasks, hmem⟩ hstep
  refine ⟨keepsTrail_step htasks hstep, fun e he => ?_, ?_⟩
  · rcases List.mem_append.mp he with he | he
    · exact hasks e he
    · exact asks_step htasks hstep e he
  · rw [opsOn_append]
    exact postAfter_step htasks hstep hmem

end Runs

/-! ## Accounting -/

/-- How many of the operations are asked for by requests equal to `r`. -/
def appliedCount (r : Request) (h : List Applied) : Nat := h.countP fun e => e.request = r

/-- The request is to like, unlike or comment the post. -/
def Request.About [Bson] (r : Request) (post : ObjectId) : Prop :=
  r.written = some .posts ∧ r.target = some post

section Accounting

variable {s s' : State} {a : Action} {i : Nat} {outcome : Outcome} {task : Task}

/-- What is applied is for the request that makes the call. -/
theorem label_of_applied (hi : s.tasks[i]? = some task) {e : Applied}
    (he : e ∈ applied s (.call i outcome)) : e.request = task.label := by
  simp only [applied, hi] at he
  split at he
  · split at he
    · rw [List.mem_singleton.mp he]
    · cases he
  · cases he

variable [Bson]

theorem label_of_deeds (hi : s.tasks[i]? = some task) {x : Done}
    (hx : x ∈ deeds s (.call i outcome)) : x.request = task.label := by
  simp only [deeds, hi] at hx
  cases hω : outcome.choice? with
  | none =>
    rw [hω] at hx
    cases hx
  | some ω =>
    simp only [hω] at hx
    split at hx
    · cases hx
    · split at hx
      · rw [List.mem_singleton.mp hx]
      · cases hx

/-- A request for an operation is about its post. -/
theorem Request.Asks.about {r : Request} {post : ObjectId} {op : PostOp} (h : r.Asks post op) :
    r.About post := by
  cases h with
  | like hpost huser => exact ⟨rfl, toOption_oid hpost⟩
  | unlike hpost huser => exact ⟨rfl, toOption_oid hpost⟩
  | comment created_at hpost huser => exact ⟨rfl, toOption_oid hpost⟩

/-- The requests about a post write. -/
theorem Request.About.writes {r : Request} {post : ObjectId} (h : r.About post) : r.writes = true := by
  cases r with
  | get_users login name => cases h.1
  | get_posts author_id tag => cases h.1
  | get_messages user_id => cases h.1
  | posts_by_users => cases h.1
  | _ => rfl

/-- The write of a request about a post is the update of an operation on it. -/
theorem Request.Performs.about {r : Request} {c : Call} (h : r.Performs c) {post : ObjectId}
    (habout : r.About post) : ∃ op deed, r.deed c.created_at = some deed ∧
      c = .update_one .posts (.field "_id" (.oid post)) (PostOp.update op) := by
  obtain ⟨created_at, deed, id, hdeed, htarget, rfl⟩ := h
  obtain ⟨hposts, hpost⟩ := habout
  have hcreated_at := Request.deed_created_at hdeed id
  cases r with
  | create_post post => cases hpost
  | like_post post_id user_id =>
    obtain ⟨user, -, rfl⟩ := Option.map_eq_some_iff.mp hdeed
    cases hpost.symm.trans (htarget.resolve_left nofun)
    exact ⟨.like user, _, hcreated_at, rfl⟩
  | unlike_post post_id user_id =>
    obtain ⟨user, -, rfl⟩ := Option.map_eq_some_iff.mp hdeed
    cases hpost.symm.trans (htarget.resolve_left nofun)
    exact ⟨.unlike user, _, hcreated_at, rfl⟩
  | add_comment post_id user_id text =>
    obtain ⟨user, -, rfl⟩ := Option.map_eq_some_iff.mp hdeed
    cases hpost.symm.trans (htarget.resolve_left nofun)
    exact ⟨.comment (commentOf user text created_at), _, hcreated_at, rfl⟩
  | _ => cases hposts

/-- The deed of a request about a post is the operation that it applies. -/
theorem dones_deeds (hfits : ∀ task ∈ s.tasks, ∃ g, FitsDeed task g) {r : Request} {post : ObjectId}
    (habout : r.About post) (h : step s a = some s') :
    dones r (deeds s a) = appliedCount r (applied s a) := by
  cases a with
  | call i outcome =>
    obtain ⟨task, -, c, k, -, hi, -, hprog, -⟩ := call_set h
    obtain ⟨g, hvoid, hobeys⟩ := hfits task (List.mem_of_getElem? hi)
    have hc : task.prog.head? = some c := by
      rw [hprog]
      rfl
    rw [hprog] at hobeys
    by_cases hr : task.label = r
    · subst hr
      cases hwrites : c.changesMongo with
      | false =>
        have hother : ∀ filter update, c ≠ .update_one .posts filter update := by
          rintro filter update rfl
          cases hwrites
        rw [deeds_read hi hc hwrites, applied_other hi hc hother]
        rfl
      -- the update was done for the deed that the request asks for, and both count it or neither
      | true =>
        obtain ⟨op, deed, hdeed, rfl⟩ :=
          ((hobeys.1 hwrites).resolve_left hvoid).2.about habout
        rw [deeds_call hi hc, applied_update hi hc, habout.2, hdeed]
        simp only [Db.write]
        cases outcome.choice? with
        | none => rfl
        | some ω =>
          cases s.shared.db.update_one .posts (.field "_id" (.oid post)) op.update with
          | none => rfl
          | some result =>
            obtain ⟨n, db⟩ := result
            rcases n with _ | _ | n <;> rfl
    · have hnone : dones r (deeds s (.call i outcome)) = 0 := List.countP_eq_zero.mpr fun x hx hxr =>
        hr ((label_of_deeds hi hx).symm.trans (of_decide_eq_true hxr))
      rw [hnone]
      exact (List.countP_eq_zero.mpr fun e he her =>
        hr ((label_of_applied hi he).symm.trans (of_decide_eq_true her))).symm
  | _ => rfl

/-- **Accounting.** In a run the operations are on posts whose ids have been given, and those asked
for by a request about a post are its deeds. -/
theorem applied_run {db : Db} {as : List Action} (hrun : Runs.exec step (State.init db) as = some s) :
    (∀ e ∈ history (State.init db) as,
      e.request.Asks e.post e.op ∧ e.post ∈ s.shared.db.issued) ∧
    ∀ r post, r.About post → dones r (ledger (State.init db) as) =
      appliedCount r (history (State.init db) as) := by
  suffices h : (∀ task ∈ s.tasks, ∃ g, FitsDeed task g) ∧ (∀ task ∈ s.tasks, KeepsTrail task) ∧
      (∀ e ∈ history (State.init db) as,
        e.request.Asks e.post e.op ∧ e.post ∈ s.shared.db.issued) ∧
      ∀ r post, r.About post → dones r (ledger (State.init db) as) =
        appliedCount r (history (State.init db) as) from h.2.2
  refine Runs.exec_history (I := fun s as => (∀ task ∈ s.tasks, ∃ g, FitsDeed task g) ∧
      (∀ task ∈ s.tasks, KeepsTrail task) ∧
      (∀ e ∈ history (State.init db) as,
        e.request.Asks e.post e.op ∧ e.post ∈ s.shared.db.issued) ∧
      ∀ r post, r.About post → dones r (ledger (State.init db) as) =
        appliedCount r (history (State.init db) as)) ?_ ?_ hrun
  -- one action adds the same number to both counts
  · intro m a m' as hm ⟨hfits, htrail, hissued, hcount⟩ hstep
    have hhistory : history (State.init db) (as ++ [a]) = history (State.init db) as ++ applied m a :=
      Runs.outputs_concat hm a
    refine ⟨fitsDeed_step hfits hstep, keepsTrail_step htrail hstep, fun e he => ?_,
      fun r post habout => ?_⟩
    · rw [hhistory] at he
      rcases List.mem_append.mp he with he | he
      · exact ⟨(hissued e he).1, issued_step hstep (hissued e he).2⟩
      · exact ⟨asks_step htrail hstep e he, issued_step hstep (issued_of_applied htrail hstep e he)⟩
    · rw [ledger_concat hm, hhistory, dones_append, hcount r post habout,
        dones_deeds hfits habout hstep]
      exact List.countP_append.symm
  · exact ⟨fun _ htask => absurd htask List.not_mem_nil, fun _ htask => absurd htask List.not_mem_nil,
      fun _ he => absurd he List.not_mem_nil, fun _ _ _ => rfl⟩

/-- No operation is applied to a post before it is there, or in the step that makes it. -/
theorem appliedCount_after {db : Db} {before after : List Action} {m m' : State}
    (hbefore : Runs.exec step (State.init db) before = some m) (hcreate : step m a = some m')
    {id : ObjectId} {doc : Doc}
    (hnew : m'.shared.db.docs .posts = m.shared.db.docs .posts ++ [("_id", .oid id) :: doc])
    {r : Request} (habout : r.About id) :
    appliedCount r (history (State.init db) (before ++ a :: after)) =
      appliedCount r (history m' after) := by
  obtain ⟨hissued, hnone⟩ := applied_create (keepsTrail_run hbefore) hcreate hnew
  have hhistory : history (State.init db) (before ++ a :: after) =
      history (State.init db) before ++ history m' after := by
    refine (Runs.outputs_append hbefore _).trans ?_
    rw [Runs.outputs_cons hcreate, hnone]
    rfl
  have hzero : appliedCount r (history (State.init db) before) = 0 := by
    refine List.countP_eq_zero.mpr fun e he her => hissued ?_
    obtain ⟨hasks, hpost⟩ := (applied_run hbefore).1 e he
    rw [of_decide_eq_true her] at hasks
    rwa [Option.some.inj (habout.2.symm.trans hasks.about.2)]
  rw [hhistory, appliedCount, List.countP_append]
  show appliedCount r (history (State.init db) before) + _ = _
  rw [hzero, Nat.zero_add]
  rfl

end Accounting

/-! ## Requests that are refused -/

/-- Where the `i`-th request in flight is after the actions, as long as it is not answered. -/
def follow : Nat → List Action → Option Nat
  | i, [] => some i
  | i, .finish j :: as => if j = i then none else follow (if j < i then i - 1 else i) as
  | i, _ :: as => follow i as

/-- A request about a post that has changed something in the step is not answered 400 or 404. -/
def NotRefusedLater [Bson] (s s' : State) (i : Nat) : Prop :=
  ∀ task, s.tasks[i]? = some task → task.label.written = some .posts →
    (∃ c, s'.shared.db.docs c ≠ s.shared.db.docs c) →
      ∀ as s₁ j s₂, Runs.exec step s' as = some s₁ → follow i as = some j →
        step s₁ (.finish j) = some s₂ →
          ∃ r, s₂.shared.answered = s₁.shared.answered ++ [(task.label, r)] ∧ ¬ IsRefusal r

section Refusals

variable {s s' : State} {a : Action} {i : Nat}

/-- A call that has changed something is noted. -/
theorem changed_of_effect {db db' : Db} {c : Call} {x : Except PyError c.Answer}
    (h : Effect db c x db') (hdocs : ∃ c', db'.docs c' ≠ db.docs c') (g : Trail) :
    (g.next c x).changed = true := by
  cases h with
  | same => exact absurd rfl hdocs.choose_spec
  | @insert coll doc id x => cases x <;> rfl
  | @update coll filter update n x _ hupdate hx =>
    cases x with
    | error e => rfl
    | ok a =>
      cases hx a rfl
      obtain ⟨⟨_, _, _, _, -, -, -, hn, -⟩ | ⟨-, -, hsame⟩, hother, -⟩ := Db.docs_update_one hupdate
      -- a document has been found, so the answer is not 0
      · subst hn
        rfl
      · obtain ⟨c', hc'⟩ := hdocs
        by_cases hc : c' = coll
        · subst hc
          exact absurd hsame hc'
        · exact absurd (hother c' hc) hc'
  | @delete coll filter x hx =>
    cases x with
    | error e => rfl
    | ok a =>
      cases hx a rfl
      obtain ⟨⟨_, _, _, -, -, -, hn, -⟩ | ⟨-, -, -, hsame⟩, hother, -⟩ :=
        Db.docs_delete_one db coll filter
      · show (g.matched (db.delete_one coll filter).1 none).changed = true
        rw [hn]
        rfl
      · obtain ⟨c', hc'⟩ := hdocs
        by_cases hc : c' = coll
        · subst hc
          exact absurd hsame hc'
        · exact absurd (hother c' hc) hc'

variable [Bson]

/-- The request may have changed Mongo. -/
def HasWritten (l : Request) (task : Task) : Prop :=
  task.label = l ∧ ∃ g, FitsTrail task g ∧ g.changed = true

/-- Once a request has written, it has written. -/
theorem hasWritten_call {l : Request} {task : Task} (h : HasWritten l task) {c : Call}
    {k : Except PyError c.Answer → Api Reply} (hprog : task.prog = .call c k)
    {aux : Option KeyValue.Scan} {outcome : Outcome} {w w' : World} {r : Except PyError c.Answer}
    (hexec : exec task.label c aux outcome w = some (w', .inr r)) :
    HasWritten l { task with prog := k r, aux := none } := by
  obtain ⟨hlabel, g, hg, hchanged⟩ := h
  exact ⟨hlabel, _, (hg.call hprog hexec).2, Trail.changed_next hchanged c r⟩

/-- The request that has written is found where it is followed. -/
theorem hasWritten_run {l : Request} {task : Task} (hi : s.tasks[i]? = some task)
    (h : HasWritten l task) {as : List Action} (hrun : Runs.exec step s as = some s') {j : Nat}
    (hj : follow i as = some j) : ∃ task', s'.tasks[j]? = some task' ∧ HasWritten l task' := by
  induction as generalizing s i task with
  | nil =>
    cases hrun
    cases hj
    exact ⟨task, hi, h⟩
  | cons a as ih =>
    obtain ⟨m, hm, hrest⟩ := Runs.exec_cons_eq_some.mp hrun
    cases a with
    | request r =>
      cases hm
      refine ih ?_ h hrest hj
      exact (List.getElem?_append_left (List.getElem?_eq_some_iff.mp hi).1).trans hi
    | tick ms =>
      cases hm
      refine ih ?_ h hrest hj
      exact hi
    | call k outcome =>
      obtain ⟨t, t', hk, hstep, htasks⟩ := Pool.advance_set hm
      by_cases hki : k = i
      · subst hki
        rw [hi] at hk
        cases hk
        have ht' : HasWritten l t' := by
          obtain ⟨c, k', hprog, ⟨sc, -, rfl⟩ | ⟨r, hexec, rfl⟩⟩ := Pool.Task.step_eq_some.mp hstep
          · exact h
          · exact hasWritten_call h hprog hexec
        refine ih ?_ ht' hrest hj
        rw [htasks]
        exact List.getElem?_set_self (List.getElem?_eq_some_iff.mp hi).1
      · refine ih ?_ h hrest hj
        rw [htasks, List.getElem?_set_ne hki]
        exact hi
    | finish k =>
      obtain ⟨⟨l', r, m'⟩, hretire, rfl⟩ := Option.map_eq_some_iff.mp hm
      obtain ⟨t, -, -, -, rfl⟩ := Pool.retire_eraseIdx hretire
      rw [follow] at hj
      -- an earlier request that leaves moves this one forward
      split_ifs at hj with hki hlt
      · refine ih ?_ h hrest hj
        show (s.tasks.eraseIdx k)[i - 1]? = _
        rw [List.getElem?_eraseIdx, if_neg (by omega), show i - 1 + 1 = i by omega]
        exact hi
      · refine ih ?_ h hrest hj
        show (s.tasks.eraseIdx k)[i]? = _
        rw [List.getElem?_eraseIdx, if_pos (by omega)]
        exact hi

/-- **Refusals.** -/
theorem notRefusedLater (htasks : ∀ task ∈ s.tasks, KeepsTrail task) {outcome : Outcome}
    (h : step s (.call i outcome) = some s') : NotRefusedLater s s' i := by
  intro task hi hposts hdocs as s₁ j s₂ hrun hfollow hfinish
  obtain ⟨t, t', ht, hstep, htasks'⟩ := Pool.advance_set h
  rw [hi] at ht
  cases ht
  obtain ⟨c, k, hprog, hcall⟩ := Pool.Task.step_eq_some.mp hstep
  obtain ⟨g, hg⟩ := htasks task (List.mem_of_getElem? hi)
  have hwritten : HasWritten task.label t' := by
    rcases hcall with ⟨sc, hexec, rfl⟩ | ⟨r, hexec, rfl⟩
    · rcases exec_effect hexec with ⟨-, hdb⟩ | ⟨x, hx, -⟩
      · obtain ⟨c', hc'⟩ := hdocs
        rw [hdb] at hc'
        exact absurd rfl hc'
      · cases hx
    · rcases exec_effect hexec with ⟨⟨sc, hsc⟩, -⟩ | ⟨x, hx, heffect⟩
      · cases hsc
      · cases hx
        exact ⟨rfl, _, (hg.call hprog hexec).2, changed_of_effect heffect hdocs g⟩
  have hi' : s'.tasks[i]? = some t' := by
    rw [htasks']
    exact List.getElem?_set_self (List.getElem?_eq_some_iff.mp hi).1
  obtain ⟨t₁, hj, hlabel, g₁, ⟨hobeys, hraised⟩, hchanged⟩ := hasWritten_run hi' hwritten hrun hfollow
  obtain ⟨⟨l, r, m⟩, hretire, rfl⟩ := Option.map_eq_some_iff.mp hfinish
  obtain ⟨t₂, ht₂, rfl, hended, rfl⟩ := Pool.retire_eraseIdx hretire
  rw [hj] at ht₂
  cases ht₂
  refine ⟨r, by rw [← hlabel], fun hrefusal => ?_⟩
  have hsettled : Settled t₁.label r g₁ := by
    generalize t₁.prog = p at hobeys hended
    cases p with
    | ret a =>
      cases hended
      exact hobeys
    | raise e =>
      cases hended
      exact hobeys
    | call c' k' => cases hended
  rw [hlabel] at hsettled
  obtain ⟨e, he, rfl⟩ := hsettled hposts hchanged hrefusal
  -- what a call has raised is no status
  have hcall := hraised e he
  cases e with
  | httpException status_code detail headers => cases hcall
  | _ => cases hrefusal

end Refusals

/-! ## Letters -/

/-- The texts differ in the case of letters only. -/
def SameLetters (s s' : String) : Prop := s.toList.map Char.toLower = s'.toList.map Char.toLower

/-- An id is read without regard to the case of its digits. -/
theorem oid_congr [Bson] {s s' : String} (h : SameLetters s s') : oid s = oid s' := by
  unfold oid
  rw [Bson.parse?_congr h]

/-- Requests whose ids differ in the case of letters only do the same. -/
theorem handle_congr [Bson] {post_id post_id' user_id user_id' : String}
    (hpost : SameLetters post_id post_id') (huser : SameLetters user_id user_id') :
    handle (.like_post post_id user_id) = handle (.like_post post_id' user_id') ∧
      handle (.unlike_post post_id user_id) = handle (.unlike_post post_id' user_id') ∧
      ∀ text, handle (.add_comment post_id user_id text) =
        handle (.add_comment post_id' user_id' text) := by
  simp only [handle, like_post, unlike_post, add_comment]
  rw [oid_congr hpost, oid_congr huser]
  exact ⟨rfl, rfl, fun _ => rfl⟩

/-! ## Likes and comments -/

/-- What a step does, after the operations `ops` on the post with the id: an operation changes one
field of one post, it changes nothing where it repeats what is the case, and a request that changes
something is not refused later. -/
structure FaithfulStep [Bson] (id : ObjectId) (ops : List PostOp) (s : State) (a : Action) (s' : State) :
    Prop where
  one : ∀ e ∈ applied s a, ∃ l₁ d l₂ d', s.shared.db.docs .posts = l₁ ++ d :: l₂ ∧
    s'.shared.db.docs .posts = l₁ ++ d' :: l₂ ∧ d.get "_id" = some (.oid e.post) ∧
    (∀ f, f ≠ e.op.field → d'.get f = d.get f) ∧
    ∀ c, c ≠ .posts → s'.shared.db.docs c = s.shared.db.docs c
  repeats : ∀ e ∈ applied s a, e.post = id → Repeats ops e.op →
    ∀ c, s'.shared.db.docs c = s.shared.db.docs c
  refused : ∀ i outcome, a = .call i outcome → NotRefusedLater s s' i

theorem faithfulStep [Bson] {s s' : State} {a : Action} {id author : ObjectId} {post : PostCreate}
    {created_at : Nat} {ops : List PostOp} (htasks : ∀ task ∈ s.tasks, KeepsTrail task)
    (hmem : postAfter id author post created_at ops ∈ s.shared.db.docs .posts)
    (h : step s a = some s') : FaithfulStep id ops s a s' := by
  have hstep := postStep htasks h
  refine ⟨fun e he => ?_, fun e he hpost hrepeats => ?_, fun i outcome ha => ?_⟩
  · generalize applied s a = es at hstep he
    cases hstep with
    | same => cases he
    | created => cases he
    | applied e' l₁ d l₂ d' _ hbefore hid happly hafter hother =>
      rw [List.mem_singleton.mp he]
      exact ⟨l₁, d, l₂, d', hbefore, hafter, hid, fun f hf => PostOp.get_apply happly hf, hother⟩
  · generalize applied s a = es at hstep he
    cases hstep with
    | same => cases he
    | created => cases he
    | applied e' l₁ d l₂ d' _ hbefore hid happly hafter hother =>
      rw [List.mem_singleton.mp he] at hpost hrepeats
      have hd : d ∈ s.shared.db.docs .posts := by
        rw [hbefore]
        exact Lists.mem_middle.mpr (.inl rfl)
      have heq : d = postAfter id author post created_at ops := by
        refine List.inj_on_of_nodup_map (s.shared.db.coll .posts).nodup hd hmem ?_
        rw [hid, hpost]
        rfl
      -- a like that is there, or an unlike of one that is not, changes nothing
      have hsame : d' = d := by
        rw [heq] at happly ⊢
        rw [apply_postAfter happly, postAfter_repeats hrepeats]
      intro c
      by_cases hc : c = .posts
      · rw [hc, hafter, hbefore, hsame]
      · exact hother c hc
  · subst ha
    exact notRefusedLater htasks h

/-- **Likes and comments.** After the step that creates a post and any run, every operation of the
history is asked for by a request; the post has the likes that the last like or unlike of each user
leaves, without duplicates, and the comments of its history in order, and otherwise it is as it was
created; behind every request about it that is answered with success there is an operation of its
own; every next step is faithful; and the case of letters in ids does not matter. -/
theorem likes_and_comments_tracked [Bson] {db : Db} {before after : List Action} {a : Action}
    {m m' s : State} (hbefore : Runs.exec step (State.init db) before = some m)
    (hcreate : step m a = some m') {id author : ObjectId} {post : PostCreate} {created_at : Nat}
    (hnew : m'.shared.db.docs .posts =
      m.shared.db.docs .posts ++ [("_id", .oid id) :: postDoc author post created_at])
    (hafter : Runs.exec step m' after = some s) :
    (∀ e ∈ history m' after, e.request.Asks e.post e.op) ∧
    (∃ likes, DocStore.findOne (.field "_id" (.oid id)) (s.shared.db.docs .posts) =
        some (postWith id author post created_at likes
          ((opsOn id (history m' after)).filterMap PostOp.comment?)) ∧
      likes.Nodup ∧ ∀ user, user ∈ likes ↔ Likes user (opsOn id (history m' after))) ∧
    (∀ r, r.About id →
      answerCount r (·.isOk) s.shared.answered ≤ appliedCount r (history m' after) ∧
        appliedCount r (history m' after) ≤ (arrivals (before ++ a :: after)).count r ∧
        ((∀ b ∈ before ++ a :: after, b.answers) →
          appliedCount r (history m' after) + answerCount r isStatus s.shared.answered ≤
            (arrivals (before ++ a :: after)).count r)) ∧
    (∀ b s', step s b = some s' → FaithfulStep id (opsOn id (history m' after)) s b s') ∧
    ∀ post_id post_id' user_id user_id', SameLetters post_id post_id' → SameLetters user_id user_id' →
      handle (.like_post post_id user_id) = handle (.like_post post_id' user_id') ∧
        handle (.unlike_post post_id user_id) = handle (.unlike_post post_id' user_id') ∧
        ∀ text, handle (.add_comment post_id user_id text) =
          handle (.add_comment post_id' user_id' text) := by
  have htasks : ∀ task ∈ m'.tasks, KeepsTrail task :=
    keepsTrail_step (keepsTrail_run hbefore) hcreate
  have hmem : postAfter id author post created_at [] ∈ m'.shared.db.docs .posts := by
    rw [hnew, postAfter_nil]
    exact List.mem_append_right _ List.mem_cons_self
  obtain ⟨htasks', hasks, hpost⟩ := postAfter_run htasks hmem hafter
  refine ⟨hasks, ⟨replay ((opsOn id (history m' after)).filterMap PostOp.mark?), ?_,
    nodup_replay _, fun user => mem_replay_iff⟩, fun r habout => ?_,
    fun b s' hstep => faithfulStep htasks' hpost hstep, fun _ _ _ _ => handle_congr⟩
  · exact Validated.findOne_of_mem (c := s.shared.db.coll .posts) hpost rfl
  -- every update since the creation is a deed of the whole run
  · have hrun : Runs.exec step (State.init db) (before ++ a :: after) = some s := by
      rw [Runs.exec_append, hbefore]
      show Runs.exec step m (a :: after) = some s
      rw [Runs.exec_cons, hcreate]
      exact hafter
    rw [← appliedCount_after hbefore hcreate hnew habout, ← (applied_run hrun).2 r id habout]
    exact accounted r hrun habout.writes

open scoped Hex

/-- Bob writes a post. -/
def bobWrites : List Action :=
  addBob ++
    [.request (.create_post ⟨"000000000000000000000000", "hello", []⟩), .call 1 (.ok first),
      .call 1 (.ok first)]

def bobPosts : Action := .call 1 (.ok { first with id := .ofNat 0xa })

/-- He likes it, writing the id in another case. -/
def like : Request := .like_post "A00000000000000000000000" "000000000000000000000000"

def bobLikes : List Action := .request like :: (List.replicate 6 (.call 2 (.ok first)) ++ [.finish 2])

theorem likes_and_comments_tracked_bob : ∃ m m' s,
    Runs.exec step (State.init Db.empty) bobWrites = some m ∧
    step m bobPosts = some m' ∧ Runs.exec step m' bobLikes = some s ∧
    opsOn (.ofNat 0xa) (history m' bobLikes) = [.like (.ofNat 0)] ∧
    (∃ likes, DocStore.findOne (.field "_id" (.oid (.ofNat 0xa))) (s.shared.db.docs .posts) =
      some (postWith (.ofNat 0xa) (.ofNat 0) ⟨"000000000000000000000000", "hello", []⟩ 0 likes []) ∧
      ObjectId.ofNat 0 ∈ likes) ∧
    answerCount like (·.isOk) s.shared.answered = 1 ∧ appliedCount like (history m' bobLikes) = 1 := by
  have hresult : ((Runs.exec step (State.init Db.empty) bobWrites).bind fun m =>
      (step m bobPosts).bind fun m' => (Runs.exec step m' bobLikes).map fun s =>
        (m.shared.db.docs .posts, m'.shared.db.docs .posts,
          decide (opsOn (.ofNat 0xa) (history m' bobLikes) = [.like (.ofNat 0)] ∧
            answerCount like (·.isOk) s.shared.answered = 1))) =
      some ([], [("_id", .oid (.ofNat 0xa)) ::
        postDoc (.ofNat 0) ⟨"000000000000000000000000", "hello", []⟩ 0], true) := by
    decide +kernel
  obtain ⟨m, hm, hresult⟩ := Option.bind_eq_some_iff.mp hresult
  obtain ⟨m', hm', hresult⟩ := Option.bind_eq_some_iff.mp hresult
  obtain ⟨s, hs, hresult⟩ := Option.map_eq_some_iff.mp hresult
  simp only [Prod.mk.injEq] at hresult
  obtain ⟨hnone, hone, hcounts⟩ := hresult
  obtain ⟨hops, hanswer⟩ := of_decide_eq_true hcounts
  have hnew : m'.shared.db.docs .posts = m.shared.db.docs .posts ++ [("_id", .oid (.ofNat 0xa)) ::
      postDoc (.ofNat 0) ⟨"000000000000000000000000", "hello", []⟩ 0] := by
    rw [hnone, hone]
    rfl
  obtain ⟨-, ⟨likes, hfound, -, hlikes⟩, haccounted, -⟩ := likes_and_comments_tracked hm hm' hnew hs
  obtain ⟨hleast, hmost, -⟩ := haccounted like ⟨rfl, by decide +kernel⟩
  have harrived : (arrivals (bobWrites ++ bobPosts :: bobLikes)).count like = 1 := by decide +kernel
  rw [hops] at hfound hlikes
  exact ⟨m, m', s, hm, hm', hs, hops, ⟨likes, hfound, (hlikes (.ofNat 0)).mpr rfl⟩, hanswer, by omega⟩

end SocialNetwork.MongoApi

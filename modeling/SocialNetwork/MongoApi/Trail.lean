import SocialNetwork.MongoApi.ServiceTheorems

/-!
# The trail of a request

`trail` follows what one request has written: whether it may have changed Mongo, and which document
it has inserted or updated and not yet read back. `handle_trail` says of every endpoint that it
changes a post only as it is asked to, reads back just what it has written, and answers 400 or 404 to
a request about a post only if it has changed nothing.
-/

namespace SocialNetwork.MongoApi

open DocStore

/-! ## Operations on posts -/

/-- What a request does to a post. -/
inductive PostOp
  | like (user : ObjectId)
  | unlike (user : ObjectId)
  | comment (comment : Value)
deriving DecidableEq

/-- The update of the operation. -/
def PostOp.update : PostOp → Update
  | like user => { addToSet := [("likes", .oid user)] }
  | unlike user => { pull := [("likes", .oid user)] }
  | .comment c => { push := [("comments", c)] }

/-- The operation of an update of one of these forms. -/
def PostOp.of? (update : Update) : Option PostOp :=
  match update.addToSet, update.pull, update.push with
  | [(_, .oid user)], _, _ => some (.like user)
  | _, [(_, .oid user)], _ => some (.unlike user)
  | _, _, [(_, c)] => some (.comment c)
  | _, _, _ => none

@[simp] theorem PostOp.of?_update (op : PostOp) : PostOp.of? op.update = some op := by
  cases op <;> rfl

/-- The request asks for the operation on the post. -/
inductive Request.Asks [Bson] : Request → ObjectId → PostOp → Prop
  | like {post_id user_id : String} {post user : ObjectId} (hpost : oid post_id = .ok post)
    (huser : oid user_id = .ok user) : Asks (.like_post post_id user_id) post (.like user)
  | unlike {post_id user_id : String} {post user : ObjectId} (hpost : oid post_id = .ok post)
    (huser : oid user_id = .ok user) : Asks (.unlike_post post_id user_id) post (.unlike user)
  | comment {post_id user_id text : String} {post user : ObjectId} (created_at : Nat)
    (hpost : oid post_id = .ok post) (huser : oid user_id = .ok user) :
    Asks (.add_comment post_id user_id text) post (.comment (commentOf user text created_at))

/-- The collection that the request inserts into or updates, and reads back from. -/
def Request.written : Request → Option Coll
  | create_user _ | update_user _ _ => some .users
  | create_post _ | like_post _ _ | unlike_post _ _ | add_comment _ _ _ => some .posts
  | create_message _ _ | mark_message_as_read _ => some .messages
  | _ => none

/-! ## The monitor -/

/-- What the request has done: whether it has changed the store, what it has written, and the
exception it has been answered with. -/
structure Trail where
  /-- The request may have changed Mongo. -/
  changed : Bool
  /-- What it has written, as long as it only invalidates. -/
  wrote : Option (Coll × ObjectId)
  /-- The exception of its last call. -/
  raised : Option PyError

namespace Trail

def start : Trail := ⟨false, none, none⟩

/-- The trail after a call that changes nothing. -/
def pass (g : Trail) : Trail := ⟨g.changed, none, none⟩

/-- The trail after a write that has matched `n` documents. -/
def matched (g : Trail) (n : Nat) (wrote : Option (Coll × ObjectId)) : Trail :=
  if n = 0 then g.pass else ⟨true, wrote, none⟩

def next (g : Trail) : (c : Call) → Except PyError c.Answer → Trail
  | .insert_one coll _, .ok (id : ObjectId) => ⟨true, some (coll, id), none⟩
  | .update_one coll filter _, .ok (n : Nat) =>
    g.matched n ((idOf filter).head?.map fun id => (coll, id))
  | .delete_one _ _, .ok (n : Nat) => g.matched n none
  | .insert_one _ _, .error e | .update_one _ _ _, .error e | .delete_one _ _, .error e =>
    ⟨true, none, some e⟩
  | .delete_scanned _, _ => g
  | _, .ok _ => g.pass
  | _, .error e => ⟨g.changed, none, some e⟩

def allows [Bson] (l : Request) (g : Trail) : Call → Prop
  | .find_one coll filter => l.written = some coll →
      ∃ id, filter = .field "_id" (.oid id) ∧ g.wrote = some (coll, id)
  | .update_one coll filter update => ∃ id, filter = .field "_id" (.oid id) ∧
      (coll = .posts → ∃ op, l.Asks id op ∧ update = op.update)
  | .delete_one coll _ => coll ≠ .posts
  | _ => True

/-- What may have been changed stays so. -/
theorem changed_next {g : Trail} (h : g.changed = true) (c : Call) (r : Except PyError c.Answer) :
    (g.next c r).changed = true := by
  have hmatched : ∀ n wrote, (g.matched n wrote).changed = true := by
    intro n wrote
    unfold matched
    split_ifs
    · exact h
    · rfl
  cases c with
  | insert_one coll doc => cases r <;> rfl
  | update_one coll filter update =>
    cases r with
    | error e => rfl
    | ok n => exact hmatched n _
  | delete_one coll filter =>
    cases r with
    | error e => rfl
    | ok n => exact hmatched n _
  | _ => cases r <;> exact h

/-- The exception is that of a call. -/
theorem raised_next {g : Trail} {c : Call} {r : Except PyError c.Answer} {e : PyError}
    (h : (g.next c r).raised = some e) : g.raised = some e ∨ r = .error e := by
  have hmatched : ∀ n wrote, (g.matched n wrote).raised ≠ some e := by
    intro n wrote
    unfold matched
    split_ifs <;> exact nofun
  cases c with
  | delete_scanned prefix_ => exact .inl h
  | update_one coll filter update =>
    cases r with
    | error e' => exact .inr (congrArg Except.error (Option.some.inj h))
    | ok n => exact absurd h (hmatched n _)
  | delete_one coll filter =>
    cases r with
    | error e' => exact .inr (congrArg Except.error (Option.some.inj h))
    | ok n => exact absurd h (hmatched n _)
  | _ =>
    cases r with
    | error e' => exact .inr (congrArg Except.error (Option.some.inj h))
    | ok a => cases h

end Trail

def trail [Bson] (l : Request) : Prog.Monitor Call Call.Answer PyError Trail where
  ok := Trail.allows l
  next := Trail.next

/-- The answer is 400 or 404. -/
def IsRefusal : Except PyError Reply → Prop
  | .error (.httpException status_code _ _) => status_code = 400 ∨ status_code = 404
  | _ => False

/-- A request about a post that is refused has changed nothing, unless a call has raised just that. -/
def Settled (l : Request) (r : Except PyError Reply) (g : Trail) : Prop :=
  l.written = some .posts → g.changed = true → IsRefusal r → ∃ e, g.raised = some e ∧ r = .error e

section Settled

variable {l : Request} {g : Trail}

/-- A request that has changed nothing may be refused. -/
theorem settled_unchanged (h : g.changed = false) (r : Except PyError Reply) : Settled l r g := by
  intro _ hchanged
  rw [h] at hchanged
  cases hchanged

theorem settled_of_not_refused {r : Except PyError Reply} (h : ¬ IsRefusal r) : Settled l r g :=
  fun _ _ hrefused => absurd hrefused h

theorem settled_other (h : l.written ≠ some .posts) (r : Except PyError Reply) : Settled l r g :=
  fun hposts => absurd hposts h

/-- An exception of the server ends the request as it is. -/
theorem settled_raised {e : PyError} (h : g.raised = some e) : Settled l (.error e) g :=
  fun _ _ _ => ⟨e, h, rfl⟩

end Settled

variable [Bson]

/-! ## The pieces of the endpoints -/

section Pieces

variable {l : Request} {g : Trail} {α : Type}

/-- A refusal before anything has changed. -/
theorem trail_liftExcept {x : Except PyError α} {f : α → Api Reply} (h : g.changed = false)
    (hok : ∀ a, x = .ok a → (f a).Obeys (trail l) (Settled l) g) :
    Prog.Obeys (trail l) (Settled l) g (liftExcept x >>= f) := by
  cases x with
  | ok a => exact hok a rfl
  | error e => exact settled_unchanged h _

/-- A call that reads something else than what is written. -/
theorem trail_read {c : Call} {f : c.Answer → Api Reply} (hallows : g.allows l c)
    (hok : ∀ a, g.next c (.ok a) = g.pass) (herror : ∀ e, (g.next c (.error e)).raised = some e)
    (h : ∀ a, (f a).Obeys (trail l) (Settled l) g.pass) :
    Prog.Obeys (trail l) (Settled l) g (Prog.perform c >>= f) := by
  refine Prog.obeys_perform_bind.mpr ⟨hallows, fun a => ?_, fun e => settled_raised (herror e)⟩
  show Prog.Obeys _ _ (g.next c (.ok a)) (f a)
  rw [hok]
  exact h a

/-- Clearing a cache leaves the trail. -/
theorem trail_invalidate {Q : Except PyError α → Trail → Prop} {prefix_ : String}
    {f : Unit → Api α} (h : (f ()).Obeys (trail l) Q g) :
    Prog.Obeys (trail l) Q g <| cache_delete_prefix prefix_ >>= f := by
  refine Prog.obeys_bind.mpr (Prog.obeys_tryCatch.mpr (Prog.obeys_perform.mpr ⟨trivial, fun r => ?_⟩))
  cases r with
  | error e => exact h
  | ok u => exact h

theorem trail_invalidate_posts_cache {f : Unit → Api Reply}
    (h : (f ()).Obeys (trail l) (Settled l) g) :
    Prog.Obeys (trail l) (Settled l) g (invalidate_posts_cache >>= f) := by
  unfold invalidate_posts_cache
  rw [Prog.bind_assoc_eq]
  exact trail_invalidate (trail_invalidate h)

/-- `to_json` raises no status. -/
theorem trail_replyWith {Q : Except PyError Reply → Trail → Prop} (doc : Option Doc)
    (herror : ∀ e, ¬ IsRefusal (.error e) → Q (.error e) g) (hok : ∀ reply, Q (.ok reply) g) :
    (replyWith doc).Obeys (trail l) Q g := by
  cases doc with
  | none => exact herror .typeError id
  | some doc =>
    show Prog.Obeys (trail l) Q g (liftExcept (to_json doc) >>= fun json => pure ⟨[], .obj json⟩)
    cases hjson : to_json doc with
    | ok json => exact hok _
    | error e =>
      apply herror
      rcases to_json_error hjson with rfl | rfl <;> exact id

/-- What has been written is read back. -/
theorem trail_readBack {coll : Coll} {id : ObjectId} (hwrote : g.wrote = some (coll, id)) :
    Prog.Obeys (trail l) (Settled l) g (find_one coll id >>= replyWith) := by
  refine trail_read (fun _ => ⟨id, rfl, hwrote⟩) (fun _ => rfl) (fun _ => rfl) fun doc => ?_
  exact trail_replyWith doc (fun e he => settled_of_not_refused he)
    fun reply => settled_of_not_refused fun h => h

/-- A document of another collection than the one that is written is looked for. -/
theorem trail_find_one {coll : Coll} {id : ObjectId} {f : Option Doc → Api Reply}
    (hcoll : l.written ≠ some coll) (h : ∀ doc, (f doc).Obeys (trail l) (Settled l) g.pass) :
    Prog.Obeys (trail l) (Settled l) g (find_one coll id >>= f) :=
  trail_read (fun hwritten => absurd hwritten hcoll) (fun _ => rfl) (fun _ => rfl) h

/-- Rows are encoded, cached and returned by a request that writes nothing. -/
theorem trail_cache_set {key : String} {body : Value} {reply : Reply} (h : g.changed = false) :
    Prog.Obeys (trail l) (Settled l) g (cache_set key body >>= fun _ => pure reply) := by
  refine Prog.obeys_bind.mpr (Prog.obeys_tryCatch.mpr (Prog.obeys_perform.mpr ⟨trivial, fun r => ?_⟩))
  cases r with
  | error e => exact settled_unchanged (g := ⟨g.changed, none, some e⟩) h (.ok reply)
  | ok u => exact settled_unchanged (g := g.pass) h (.ok reply)

/-- Reading the cache changes nothing. -/
theorem trail_cache_get {key : String} {f : Option Value → Api Reply}
    (h : ∀ v, ∀ g : Trail, g.changed = false → (f v).Obeys (trail l) (Settled l) g) :
    Prog.Obeys (trail l) (Settled l) .start (cache_get key >>= f) := by
  refine Prog.obeys_bind.mpr (Prog.obeys_tryCatch.mpr (Prog.obeys_bind.mpr
    (Prog.obeys_perform.mpr ⟨trivial, fun r => ?_⟩)))
  cases r with
  | error e => exact h none _ rfl
  | ok v => exact h _ _ rfl

/-- An update, and what follows it if it has matched a document. -/
theorem trail_update {coll : Coll} {id : ObjectId} {update : Update} {detail : String}
    {f : Api Reply} (hupdate : coll = .posts → ∃ op, l.Asks id op ∧ update = op.update)
    (hg : g.changed = false)
    (h : ∀ g : Trail, g.wrote = some (coll, id) → f.Obeys (trail l) (Settled l) g) :
    Prog.Obeys (trail l) (Settled l) g (do
      let matched_count : Nat ← Prog.perform
        (Call.update_one coll (.field "_id" (.oid id)) update)
      if matched_count = 0 then Prog.raise (.httpException 404 detail []) else f) := by
  refine Prog.obeys_perform_bind.mpr ⟨⟨id, rfl, hupdate⟩, fun (matched_count : Nat) => ?_,
    fun e => settled_raised rfl⟩
  show Prog.Obeys _ _ (g.matched matched_count (some (coll, id)))
    (if matched_count = 0 then _ else _)
  unfold Trail.matched
  split_ifs
  · exact settled_unchanged (g := g.pass) hg (.error (.httpException 404 detail []))
  · exact h _ rfl

/-- A deletion, and what follows it. -/
theorem trail_delete {coll : Coll} {filter : Filter} {detail : String} {f : Api Reply}
    (hcoll : coll ≠ .posts) (hl : l.written ≠ some .posts)
    (h : ∀ g : Trail, f.Obeys (trail l) (Settled l) g) :
    Prog.Obeys (trail l) (Settled l) g (do
      let deleted_count : Nat ← Prog.perform (Call.delete_one coll filter)
      if deleted_count = 0 then Prog.raise (.httpException 404 detail []) else f) := by
  refine Prog.obeys_perform_bind.mpr ⟨hcoll, fun (deleted_count : Nat) => ?_,
    fun e => settled_raised rfl⟩
  show Prog.Obeys _ _ _ (if deleted_count = 0 then _ else _)
  split_ifs
  · exact settled_other hl _
  · exact h _

/-- The invalidation after a write to users. -/
theorem trail_invalidate_all {f : Unit → Api Reply} (h : (f ()).Obeys (trail l) (Settled l) g) :
    Prog.Obeys (trail l) (Settled l) g (invalidate_users_cache >>= fun _ =>
      invalidate_posts_cache >>= fun _ => invalidate_messages_cache >>= f) :=
  trail_invalidate (trail_invalidate_posts_cache (trail_invalidate h))

end Pieces

/-! ## The endpoints -/

theorem get_users_trail (login : Option String) (min_age : Option Int) :
    (get_users login min_age).Obeys (trail (.get_users login min_age))
      (Settled (.get_users login min_age)) .start := by
  refine trail_cache_get fun v g hg => ?_
  cases v with
  | some cached => exact settled_unchanged hg _
  | none =>
    refine trail_read trivial (fun _ => rfl) (fun _ => rfl) fun rows => ?_
    exact trail_liftExcept hg fun users _ => trail_cache_set hg

theorem get_posts_trail (author_id tag : Option String) :
    (get_posts author_id tag).Obeys (trail (.get_posts author_id tag))
      (Settled (.get_posts author_id tag)) .start := by
  refine trail_cache_get fun v g hg => ?_
  cases v with
  | some cached => exact settled_unchanged hg _
  | none =>
    refine trail_liftExcept hg fun author _ => ?_
    refine trail_read trivial (fun _ => rfl) (fun _ => rfl) fun rows => ?_
    exact trail_liftExcept hg fun posts _ => trail_cache_set hg

theorem posts_by_users_trail :
    posts_by_users.Obeys (trail .posts_by_users) (Settled .posts_by_users) .start := by
  refine trail_cache_get fun v g hg => ?_
  cases v with
  | some cached => exact settled_unchanged hg _
  | none =>
    exact trail_read trivial (fun _ => rfl) (fun _ => rfl) fun rows => trail_cache_set hg

theorem get_messages_trail (user_id : String) :
    (get_messages user_id).Obeys (trail (.get_messages user_id)) (Settled (.get_messages user_id))
      .start := by
  refine trail_liftExcept rfl fun user _ => ?_
  refine trail_read trivial (fun _ => rfl) (fun _ => rfl) fun rows => ?_
  exact trail_liftExcept rfl fun messages _ => settled_unchanged rfl _

theorem create_user_trail (user : UserCreate) :
    (create_user user).Obeys (trail (.create_user user)) (Settled (.create_user user)) .start := by
  refine trail_read trivial (fun _ => rfl) (fun _ => rfl) fun (created_at : Nat) => ?_
  refine Prog.obeys_bind.mpr (Prog.obeys_tryCatch.mpr (Prog.obeys_perform.mpr ⟨trivial, fun r => ?_⟩))
  cases r with
  | error e =>
    -- the user may have been inserted, and the answer is 400 all the same
    have hother : (Request.create_user user).written ≠ some .posts := nofun
    exact settled_other (g := ⟨true, none, some e⟩) hother (.error (.httpException 400 e.str []))
  | ok inserted_id => exact trail_invalidate (trail_readBack rfl)

theorem update_user_trail (user_id : String) (data : UserUpdate) :
    (update_user user_id data).Obeys (trail (.update_user user_id data))
      (Settled (.update_user user_id data)) .start := by
  unfold update_user
  show Prog.Obeys _ _ _ (if data.update_data = [] then _ else _)
  split_ifs
  · exact settled_unchanged rfl _
  · refine trail_liftExcept rfl fun user _ => ?_
    exact trail_update nofun rfl fun g hwrote => trail_invalidate_all (trail_readBack hwrote)

theorem delete_user_trail (user_id : String) :
    (delete_user user_id).Obeys (trail (.delete_user user_id)) (Settled (.delete_user user_id))
      .start := by
  refine trail_liftExcept rfl fun user _ => ?_
  exact trail_delete (by decide) nofun fun g => trail_invalidate_all (settled_of_not_refused id)

theorem create_post_trail (post : PostCreate) :
    (create_post post).Obeys (trail (.create_post post)) (Settled (.create_post post)) .start := by
  refine trail_liftExcept rfl fun author _ => trail_find_one nofun fun doc => ?_
  split_ifs
  · exact settled_unchanged rfl _
  · refine trail_read trivial (fun _ => rfl) (fun _ => rfl) fun (created_at : Nat) => ?_
    refine Prog.obeys_perform_bind.mpr ⟨trivial, fun (inserted_id : ObjectId) => ?_,
      fun e => settled_raised rfl⟩
    exact trail_invalidate_posts_cache (trail_readBack rfl)

/-- The update of a post that is asked for. -/
theorem trail_updatePost {l : Request} {g : Trail} {post : ObjectId} {op : PostOp}
    (hasks : l.Asks post op) (hg : g.changed = false) : Prog.Obeys (trail l) (Settled l) g (do
      let matched_count : Nat ← Prog.perform
        (Call.update_one .posts (.field "_id" (.oid post)) op.update)
      afterPostUpdate matched_count post) :=
  trail_update (fun _ => ⟨op, hasks, rfl⟩) hg fun _ hwrote =>
    trail_invalidate_posts_cache (trail_readBack hwrote)

theorem like_post_trail (post_id user_id : String) :
    (like_post post_id user_id).Obeys (trail (.like_post post_id user_id))
      (Settled (.like_post post_id user_id)) .start :=
  trail_liftExcept rfl fun _ hpost => trail_liftExcept rfl fun _ huser =>
    trail_updatePost (.like hpost huser) rfl

theorem unlike_post_trail (post_id user_id : String) :
    (unlike_post post_id user_id).Obeys (trail (.unlike_post post_id user_id))
      (Settled (.unlike_post post_id user_id)) .start :=
  trail_liftExcept rfl fun _ hpost => trail_liftExcept rfl fun _ huser =>
    trail_updatePost (.unlike hpost huser) rfl

theorem add_comment_trail (post_id user_id text : String) :
    (add_comment post_id user_id text).Obeys (trail (.add_comment post_id user_id text))
      (Settled (.add_comment post_id user_id text)) .start := by
  refine trail_liftExcept rfl fun user huser => ?_
  refine trail_read trivial (fun _ => rfl) (fun _ => rfl) fun (created_at : Nat) => ?_
  refine trail_liftExcept rfl fun post hpost => ?_
  exact trail_updatePost (.comment created_at hpost huser) rfl

theorem mark_message_as_read_trail (message_id : String) :
    (mark_message_as_read message_id).Obeys (trail (.mark_message_as_read message_id))
      (Settled (.mark_message_as_read message_id)) .start := by
  refine trail_liftExcept rfl fun message _ => ?_
  exact trail_update nofun rfl fun g hwrote =>
    trail_invalidate (trail_readBack hwrote)

theorem delete_message_trail (message_id : String) :
    (delete_message message_id).Obeys (trail (.delete_message message_id))
      (Settled (.delete_message message_id)) .start := by
  refine trail_liftExcept rfl fun message _ => ?_
  exact trail_delete (by decide) nofun fun g => trail_invalidate (settled_of_not_refused id)

theorem trail_check_rate_limit {message : MessageCreate} {client : Option String}
    {f : List (String × String) → Api Reply}
    (h : ∀ headers, (f headers).Obeys (trail (.create_message message client))
      (Settled (.create_message message client)) .start) :
    Prog.Obeys (trail (.create_message message client)) (Settled (.create_message message client))
      .start (check_rate_limit client "create_message" >>= f) := by
  have hlimit : ∀ window current, Prog.Obeys (trail (.create_message message client))
      (Settled (.create_message message client)) .start (limitReply window current >>= f) := by
    intro window current
    unfold limitReply
    split_ifs
    · exact settled_unchanged rfl _
    · exact h _
  rw [check_rate_limit_eq]
  refine Prog.obeys_perform_bind_bind.mpr ⟨trivial, fun (now : Nat) => ?_, fun e => settled_raised rfl⟩
  refine Prog.obeys_perform_bind_bind.mpr ⟨trivial, fun (current : Int) => ?_,
    fun e => settled_raised rfl⟩
  show Prog.Obeys _ _ Trail.start (afterIncr client (now / (RATE_WINDOW * 1000)) current >>= f)
  unfold afterIncr
  split_ifs
  · exact Prog.obeys_perform_bind_bind.mpr ⟨trivial, fun (_ : Unit) => hlimit _ current,
      fun e => settled_raised rfl⟩
  · exact hlimit _ current

theorem create_message_trail (message : MessageCreate) (client : Option String) :
    (create_message message client).Obeys (trail (.create_message message client))
      (Settled (.create_message message client)) .start := by
  refine trail_check_rate_limit fun headers => ?_
  refine trail_liftExcept rfl fun from_ _ => trail_liftExcept rfl fun to_ _ => ?_
  refine trail_find_one nofun fun sender => ?_
  split_ifs
  · exact settled_unchanged rfl _
  · refine trail_find_one nofun fun receiver => ?_
    split_ifs
    · exact settled_unchanged rfl _
    · refine trail_read trivial (fun _ => rfl) (fun _ => rfl) fun (created_at : Nat) => ?_
      refine Prog.obeys_perform_bind.mpr ⟨trivial, fun (inserted_id : ObjectId) => ?_,
        fun e => settled_raised rfl⟩
      refine trail_invalidate ?_
      refine trail_read (fun _ => ⟨inserted_id, rfl, rfl⟩) (fun _ => rfl) (fun _ => rfl) fun created => ?_
      refine Prog.obeys_bind.mpr (trail_replyWith created (fun e he => settled_of_not_refused he)
        fun reply => ?_)
      exact settled_of_not_refused id

/-- **The trail.** -/
theorem handle_trail (r : Request) : (handle r).Obeys (trail r) (Settled r) .start := by
  cases r with
  | get_users login min_age => exact get_users_trail login min_age
  | create_user user => exact create_user_trail user
  | update_user user_id data => exact update_user_trail user_id data
  | delete_user user_id => exact delete_user_trail user_id
  | get_posts author_id tag => exact get_posts_trail author_id tag
  | create_post post => exact create_post_trail post
  | like_post post_id user_id => exact like_post_trail post_id user_id
  | unlike_post post_id user_id => exact unlike_post_trail post_id user_id
  | add_comment post_id user_id text => exact add_comment_trail post_id user_id text
  | get_messages user_id => exact get_messages_trail user_id
  | create_message message client => exact create_message_trail message client
  | mark_message_as_read message_id => exact mark_message_as_read_trail message_id
  | delete_message message_id => exact delete_message_trail message_id
  | posts_by_users => exact posts_by_users_trail

/-! ## Requests in flight -/

/-- The trail of the request so far fits what it still has to do. -/
def FitsTrail (task : Task) (g : Trail) : Prop :=
  task.prog.Obeys (trail task.label) (Settled task.label) g ∧ ∀ e, g.raised = some e → e.ofCall = true

/-- The task has a trail that it fits. -/
def KeepsTrail (task : Task) : Prop := ∃ g, FitsTrail task g

/-- A call that ends leads to the next state of the trail. -/
theorem FitsTrail.call {task : Task} {g : Trail} (h : FitsTrail task g) {c : Call}
    {k : Except PyError c.Answer → Api Reply} (hprog : task.prog = .call c k) {aux : Option KeyValue.Scan}
    {outcome : Outcome} {w w' : World} {r : Except PyError c.Answer}
    (hexec : exec task.label c aux outcome w = some (w', .inr r)) :
    g.allows task.label c ∧ FitsTrail { task with prog := k r, aux := none } (g.next c r) := by
  obtain ⟨hobeys, hraised⟩ := h
  rw [hprog] at hobeys
  refine ⟨hobeys.1, hobeys.2 r, fun e he => ?_⟩
  rcases Trail.raised_next he with he | rfl
  · exact hraised e he
  · exact exec_ofCall hexec

/-- Every step keeps every task on its trail. -/
theorem keepsTrail_step {s s' : State} {a : Action} (hs : ∀ task ∈ s.tasks, KeepsTrail task)
    (h : step s a = some s') : ∀ task ∈ s'.tasks, KeepsTrail task := by
  refine forall_tasks_step (fun r => ⟨.start, handle_trail r, nofun⟩) (fun _ _ => id) ?_ hs h
  intro task c k aux outcome w w' r ⟨g, hg⟩ hprog hexec
  exact ⟨_, (hg.call hprog hexec).2⟩

/-- In every state of a run the tasks are on their trails. -/
theorem keepsTrail_run {s : State} {db : Db} {as : List Action}
    (hrun : Runs.exec step (State.init db) as = some s) : ∀ task ∈ s.tasks, KeepsTrail task :=
  Runs.exec_preserves (I := fun s : State => ∀ task ∈ s.tasks, KeepsTrail task)
    (fun _ _ _ => keepsTrail_step) (fun _ htask => absurd htask List.not_mem_nil) hrun

end SocialNetwork.MongoApi

import SocialNetwork.MongoApi.NetworkTheorems
import SocialNetwork.MongoApi.ReferenceTheorems

/-!
# The deed of a request

Every request that writes has one deed to do. `monitor` of this module follows how far it is with it,
and `handle_deed` says of every endpoint that it makes no other write than the call of its deed, makes
it at most once, answers with success only when it is done, and with a status only when it is not.
-/

namespace SocialNetwork.MongoApi

open DocStore

/-! ## Stages -/

/-- How far a request is with its deed: still to do, its answer lost, or done. `void` is after an
exception that no call raises. -/
inductive Stage
  | pending
  | lost
  | done
  | void
deriving DecidableEq, Repr

namespace Stage

/-- The stage after a write that has matched `n` documents. -/
def matched (g : Stage) (n : Nat) : Stage := if n = 0 then g else done

def next : Stage → (c : Call) → Except PyError c.Answer → Stage
  | void, _, _ => void
  | _, .insert_one _ _, .ok _ => done
  | g, .update_one _ _ _, .ok (n : Nat) => g.matched n
  | g, .delete_one _ _, .ok (n : Nat) => g.matched n
  | g, _, .ok _ => g
  | g, c, .error e =>
    if e.ofCall then if c.changesMongo = true ∧ e = .connectionError then lost else g else void

variable {g : Stage} (hg : g ≠ void)

include hg

/-- An insert that is answered has done its deed. -/
theorem next_insert_one (coll : Coll) (doc : Doc) (id : ObjectId) :
    g.next (.insert_one coll doc) (.ok id) = done := by
  cases g with
  | void => exact absurd rfl hg
  | _ => rfl

/-- An update has done its deed if it has found its document. -/
theorem next_update_one (coll : Coll) (filter : Filter) (update : Update) (n : Nat) :
    g.next (.update_one coll filter update) (.ok n) = g.matched n := by
  cases g with
  | void => exact absurd rfl hg
  | _ => rfl

/-- A deletion has done its deed if it has found its document. -/
theorem next_delete_one (coll : Coll) (filter : Filter) (n : Nat) :
    g.next (.delete_one coll filter) (.ok n) = g.matched n := by
  cases g with
  | void => exact absurd rfl hg
  | _ => rfl

theorem next_error (c : Call) (e : PyError) : g.next c (.error e) =
    if e.ofCall then if c.changesMongo = true ∧ e = .connectionError then lost else g else void := by
  cases g with
  | void => exact absurd rfl hg
  | _ => cases c <;> rfl

/-- A write that is not answered may have done its deed or not. -/
theorem next_connectionError {c : Call} (hc : c.changesMongo = true) :
    g.next c (.error .connectionError) = lost := by
  rw [next_error hg, if_pos (show PyError.connectionError.ofCall = true from rfl), if_pos ⟨hc, rfl⟩]

/-- A write that is refused leaves the stage. -/
theorem next_refusal (c : Call) (doc : Doc) : g.next c (.error (refusal doc)) = g := by
  have hcall : (refusal doc).ofCall = true ∧ refusal doc ≠ .connectionError := by
    unfold refusal
    split_ifs
    · exact ⟨rfl, nofun⟩
    · exact ⟨rfl, nofun⟩
  rw [next_error hg, if_pos hcall.1, if_neg fun h => hcall.2 h.2]

end Stage

/-- The answer is a status that the endpoint has chosen. -/
def isStatus : Except PyError Reply → Bool
  | .error (.httpException _ _ _) => true
  | _ => false

/-- A request that writes is answered with success only when its deed is done, and with a status only
when it is not. -/
def Tallies (l : Request) (r : Except PyError Reply) (g : Stage) : Prop :=
  g = .void ∨
    (l.writes = true → r.isOk = true → g = .done) ∧ (isStatus r = true → g ≠ .done)

section Tallies

variable {l : Request} {g : Stage}

/-- A request that writes nothing has nothing to account for. -/
theorem tallies_pending (hl : l.writes = false) (r : Except PyError Reply) :
    Tallies l r .pending := by
  refine .inr ⟨fun hwrites => ?_, fun _ => nofun⟩
  rw [hl] at hwrites
  cases hwrites

/-- A success after the deed. -/
theorem tallies_done (reply : Reply) : Tallies l (.ok reply) .done :=
  .inr ⟨fun _ _ => rfl, nofun⟩

theorem tallies_error (e : PyError) (h : isStatus (.error e) = true → g ≠ .done) :
    Tallies l (.error e) g := .inr ⟨fun _ hok => absurd hok nofun, h⟩

/-- The exceptions of calls are answered with 500, not with a status of the API. -/
theorem not_status_of_ofCall {e : PyError} (h : e.ofCall = true) : isStatus (.error e) = false := by
  cases e with
  | httpException status_code detail headers => cases h
  | _ => rfl

/-- Nothing is known to be done by a call that raises. -/
theorem next_error_ne_done (hg : g ≠ .done) (c : Call) (e : PyError) :
    g.next c (.error e) ≠ .done := by
  by_cases hvoid : g = .void
  · rw [hvoid]
    exact nofun
  · rw [Stage.next_error hvoid]
    split_ifs
    · exact nofun
    · exact hg
    · exact nofun

/-- A call raises. -/
theorem tallies_raised (c : Call) (e : PyError) :
    Tallies l (.error e) (g.next c (.error e)) := by
  cases he : e.ofCall with
  | true =>
    apply tallies_error
    rw [not_status_of_ofCall he]
    exact nofun
  | false =>
    have hvoid : g.next c (.error e) = .void := by
      cases g <;> simp only [Stage.next, he, Bool.false_eq_true, if_false]
    rw [hvoid]
    exact .inl rfl

/-- A call that is no write leaves the stage. -/
theorem next_ok {c : Call} (hc : c.changesMongo = false) (a : c.Answer) : g.next c (.ok a) = g := by
  cases c with
  | insert_one coll doc => cases hc
  | update_one coll filter update => cases hc
  | delete_one coll filter => cases hc
  | _ => cases g <;> rfl

/-- Calls raise only exceptions of calls. -/
theorem next_ne_void (hg : g ≠ .void) {c : Call} {r : Except PyError c.Answer}
    (hr : ∀ e, r = .error e → e.ofCall = true) : g.next c r ≠ .void := by
  have hmatched : ∀ n, g.matched n ≠ .void := by
    intro n
    unfold Stage.matched
    split_ifs
    · exact hg
    · exact nofun
  cases r with
  | error e =>
    rw [Stage.next_error hg, if_pos (hr e rfl)]
    split_ifs
    · exact nofun
    · exact hg
  | ok a =>
    cases c with
    | insert_one coll doc => exact (Stage.next_insert_one hg coll doc a).trans_ne nofun
    | update_one coll filter update =>
      exact (Stage.next_update_one hg coll filter update a).trans_ne (hmatched a)
    | delete_one coll filter => exact (Stage.next_delete_one hg coll filter a).trans_ne (hmatched a)
    | _ => exact (next_ok rfl a).trans_ne hg

/-- A read changes no stage. -/
theorem next_read (hg : g ≠ .void) {c : Call} (hc : c.changesMongo = false)
    {r : Except PyError c.Answer} (hr : ∀ e, r = .error e → e.ofCall = true) : g.next c r = g := by
  cases r with
  | ok a => exact next_ok hc a
  | error e =>
    rw [Stage.next_error hg, if_pos (hr e rfl), if_neg]
    rintro ⟨hwrites, -⟩
    rw [hc] at hwrites
    cases hwrites

end Tallies

/-! ## What a request asks for -/

variable [Bson]

namespace Request

/-- What the request is to do, `created_at` being the time that it reads. -/
def deed (created_at : Nat) : Request → Option Deed
  | create_user user => some (.register user created_at)
  | update_user _ data => some (.edit data)
  | delete_user _ => some .remove
  | create_post post => (oid post.author_id).toOption.map fun author => .publish author post created_at
  | like_post _ user_id => (oid user_id).toOption.map .like
  | unlike_post _ user_id => (oid user_id).toOption.map .unlike
  | add_comment _ user_id text => (oid user_id).toOption.map fun user => .comment user text created_at
  | create_message message _ => (oid message.from_user_id).toOption.bind fun from_ =>
      (oid message.to_user_id).toOption.map fun to_ => .send from_ to_ message created_at
  | mark_message_as_read _ => some .markRead
  | delete_message _ => some .discard
  | _ => none

/-- The id of the document that it is about, unless it is to make one. -/
def target : Request → Option ObjectId
  | update_user id _ | delete_user id | like_post id _ | unlike_post id _ | add_comment id _ _
  | mark_message_as_read id | delete_message id => (oid id).toOption
  | _ => none

end Request

/-- The time that a write puts into a document. -/
def Call.created_at : Call → Nat
  | .insert_one _ doc => ((doc.read "created_at" Value.date?).getD 0).toNat
  | .update_one _ _ update =>
    match update.push with
    | [(_, .obj comment)] => ((Doc.read comment "created_at" Value.date?).getD 0).toNat
    | _ => 0
  | _ => 0

/-- The call is the request's deed. -/
def Request.Performs (l : Request) (c : Call) : Prop :=
  ∃ created_at deed id, l.deed created_at = some deed ∧ (deed.creates = true ∨ l.target = some id) ∧
    c = deed.call id

/-- The deed is known by its call. -/
theorem Request.deed_created_at {l : Request} {created_at : Nat} {deed : Deed}
    (h : l.deed created_at = some deed) (id : ObjectId) :
    l.deed (deed.call id).created_at = some deed := by
  cases l with
  | create_post post =>
    obtain ⟨author, hauthor, rfl⟩ := Option.map_eq_some_iff.mp h
    exact Option.map_eq_some_iff.mpr ⟨author, hauthor, rfl⟩
  | like_post post_id user_id => exact h
  | unlike_post post_id user_id => exact h
  | add_comment post_id user_id text =>
    obtain ⟨user, huser, rfl⟩ := Option.map_eq_some_iff.mp h
    exact Option.map_eq_some_iff.mpr ⟨user, huser, rfl⟩
  | create_message message client =>
    obtain ⟨from_, hfrom, h⟩ := Option.bind_eq_some_iff.mp h
    obtain ⟨to_, hto, rfl⟩ := Option.map_eq_some_iff.mp h
    exact Option.bind_eq_some_iff.mpr ⟨from_, hfrom, Option.map_eq_some_iff.mpr ⟨to_, hto, rfl⟩⟩
  | create_user user =>
    cases h
    rfl
  | _ => exact h

/-! ## The monitor -/

/-- The stages as a protocol: a writing call performs the deed of the request. -/
def deedMonitor (l : Request) : Prog.Monitor Call Call.Answer PyError Stage where
  ok g c := c.changesMongo = true → g = .void ∨ g = .pending ∧ l.Performs c
  next := Stage.next

/-! ## The pieces of the endpoints -/

section Pieces

variable {l : Request} {g : Stage} {α β : Type}

/-- After an exception that no call raises, nothing is asked. -/
theorem obeys_void (p : Api Reply) : p.Obeys (deedMonitor l) (Tallies l) .void := by
  induction p with
  | ret a => exact .inl rfl
  | raise e => exact .inl rfl
  | call c k ih => exact ⟨fun _ => .inl rfl, fun r => ih r⟩

/-- A refusal before the deed. -/
theorem deed_liftExcept {x : Except PyError α} {f : α → Api Reply} (hg : g ≠ .done)
    (hok : ∀ a, x = .ok a → (f a).Obeys (deedMonitor l) (Tallies l) g) :
    Prog.Obeys (deedMonitor l) (Tallies l) g (liftExcept x >>= f) := by
  cases x with
  | ok a => exact hok a rfl
  | error e => exact tallies_error e fun _ => hg

/-- A read, whatever it answers. -/
theorem deed_read {c : Call} {f : c.Answer → Api Reply} (hc : c.changesMongo = false)
    (h : ∀ a, (f a).Obeys (deedMonitor l) (Tallies l) g) :
    Prog.Obeys (deedMonitor l) (Tallies l) g (Prog.perform c >>= f) := by
  refine Prog.obeys_perform_bind.mpr ⟨fun hwrites => ?_, fun a => ?_, fun e => tallies_raised c e⟩
  · rw [hc] at hwrites
    cases hwrites
  · show Prog.Obeys _ _ (g.next c (.ok a)) (f a)
    rw [next_ok hc]
    exact h a

/-- A call that is no write and begins the first part of a sequence. -/
theorem deed_read_bind {c : Call} {f : c.Answer → Api β} {h : β → Api Reply}
    (hc : c.changesMongo = false)
    (hf : ∀ a, (f a >>= h).Obeys (deedMonitor l) (Tallies l) g) :
    Prog.Obeys (deedMonitor l) (Tallies l) g (Prog.perform c >>= f >>= h) := by
  rw [Prog.bind_assoc_eq]
  exact deed_read hc hf

/-- What follows a call to the cache, whose exceptions are caught. -/
theorem deed_caught {c : Call} {f : Except PyError c.Answer → Api Reply}
    (hc : c.changesMongo = false) (h : ∀ r, (f r).Obeys (deedMonitor l) (Tallies l) g)
    (r : Except PyError c.Answer) :
    (f r).Obeys (deedMonitor l) (Tallies l) (g.next c r) := by
  cases r with
  | ok a =>
    rw [next_ok hc]
    exact h _
  | error e =>
    have hnext : g.next c (.error e) = if e.ofCall then g else .void := by
      cases g <;> simp [Stage.next, hc]
    rw [hnext]
    split_ifs
    · exact h _
    · exact obeys_void _

/-- Reading the cache is no deed. -/
theorem deed_cache_get {key : String} {f : Option Value → Api Reply}
    (h : ∀ v, (f v).Obeys (deedMonitor l) (Tallies l) g) :
    Prog.Obeys (deedMonitor l) (Tallies l) g (cache_get key >>= f) := by
  refine Prog.obeys_bind.mpr (Prog.obeys_tryCatch.mpr (Prog.obeys_bind.mpr
    (Prog.obeys_perform.mpr ⟨nofun, fun r => ?_⟩)))
  have hcaught := deed_caught (c := .get key)
    (f := fun r => f (match r with
      | .ok (value : Option Value) => value.bind json_loads
      | .error _ => none)) rfl (fun r => h _) r
  cases r with
  | ok v => exact hcaught
  | error e => exact hcaught

/-- Writing the cache is no deed. -/
theorem deed_cache_set {key : String} {body : Value} {f : Unit → Api Reply}
    (h : (f ()).Obeys (deedMonitor l) (Tallies l) g) :
    Prog.Obeys (deedMonitor l) (Tallies l) g (cache_set key body >>= f) := by
  refine Prog.obeys_bind.mpr (Prog.obeys_tryCatch.mpr (Prog.obeys_perform.mpr ⟨nofun, fun r => ?_⟩))
  have hcaught := deed_caught (c := .setex key CACHE_TTL (json_dumps body)) (f := fun _ => f ())
    rfl (fun _ => h) r
  cases r with
  | ok u => exact hcaught
  | error e => exact hcaught

/-- Clearing a cache is no deed. -/
theorem deed_invalidate {prefix_ : String} {f : Unit → Api Reply}
    (h : (f ()).Obeys (deedMonitor l) (Tallies l) g) :
    Prog.Obeys (deedMonitor l) (Tallies l) g <| cache_delete_prefix prefix_ >>= f := by
  refine Prog.obeys_bind.mpr (Prog.obeys_tryCatch.mpr (Prog.obeys_perform.mpr ⟨nofun, fun r => ?_⟩))
  have hcaught := deed_caught (c := .delete_scanned prefix_) (f := fun _ => f ()) rfl (fun _ => h) r
  cases r with
  | ok u => exact hcaught
  | error e => exact hcaught

theorem deed_invalidate_posts_cache {f : Unit → Api Reply}
    (h : (f ()).Obeys (deedMonitor l) (Tallies l) g) :
    Prog.Obeys (deedMonitor l) (Tallies l) g (invalidate_posts_cache >>= f) := by
  unfold invalidate_posts_cache
  rw [Prog.bind_assoc_eq]
  exact deed_invalidate (deed_invalidate h)

/-- The invalidation after a write to users. -/
theorem deed_invalidate_all {f : Unit → Api Reply} (h : (f ()).Obeys (deedMonitor l) (Tallies l) g) :
    Prog.Obeys (deedMonitor l) (Tallies l) g (invalidate_users_cache >>= fun _ =>
      invalidate_posts_cache >>= fun _ => invalidate_messages_cache >>= f) :=
  deed_invalidate (deed_invalidate_posts_cache (deed_invalidate h))

/-- `to_json` raises no status. -/
theorem deed_replyWith {Q : Except PyError Reply → Stage → Prop} (doc : Option Doc)
    (herror : ∀ e, isStatus (.error e) = false → Q (.error e) g) (hok : ∀ reply, Q (.ok reply) g) :
    (replyWith doc).Obeys (deedMonitor l) Q g := by
  cases doc with
  | none => exact herror .typeError rfl
  | some doc =>
    show Prog.Obeys (deedMonitor l) Q g (liftExcept (to_json doc) >>= fun json => pure ⟨[], .obj json⟩)
    cases hjson : to_json doc with
    | ok json => exact hok _
    | error e =>
      apply herror
      rcases to_json_error hjson with rfl | rfl <;> rfl

/-- What has been written is read back. -/
theorem deed_readBack {coll : Coll} {id : ObjectId} :
    Prog.Obeys (deedMonitor l) (Tallies l) .done (find_one coll id >>= replyWith) := by
  refine deed_read rfl fun doc => deed_replyWith doc (fun e he => ?_) tallies_done
  apply tallies_error
  rw [he]
  exact nofun

/-- The deed, and what follows it. -/
theorem deed_write {c : Call} {f : c.Answer → Api Reply} (hperforms : l.Performs c)
    (h : ∀ a, (f a).Obeys (deedMonitor l) (Tallies l) (Stage.pending.next c (.ok a))) :
    Prog.Obeys (deedMonitor l) (Tallies l) .pending (Prog.perform c >>= f) :=
  Prog.obeys_perform_bind.mpr ⟨fun _ => .inr ⟨rfl, hperforms⟩, h, fun e => tallies_raised c e⟩

/-- A write that may match nothing: then the answer is 404, and nothing is done. -/
theorem deed_matched {n : Nat} {detail : String} {f : Api Reply}
    (h : f.Obeys (deedMonitor l) (Tallies l) .done) :
    Prog.Obeys (deedMonitor l) (Tallies l) (Stage.pending.matched n)
      (if n = 0 then Prog.raise (.httpException 404 detail []) else f) := by
  unfold Stage.matched
  split_ifs
  · exact tallies_error _ fun _ => nofun
  · exact h

/-- 404 without the deed, success with it. -/
theorem deed_afterPostUpdate {n : Nat} {post : ObjectId} :
    (afterPostUpdate n post).Obeys (deedMonitor l) (Tallies l) (Stage.pending.matched n) :=
  deed_matched (deed_invalidate_posts_cache deed_readBack)

end Pieces

/-! ## The endpoints -/

theorem toOption_oid {value : String} {id : ObjectId} (h : oid value = .ok id) :
    (oid value).toOption = some id := by
  rw [h]
  rfl

theorem get_users_deed (login : Option String) (min_age : Option Int) :
    (get_users login min_age).Obeys (deedMonitor (.get_users login min_age))
      (Tallies (.get_users login min_age)) .pending := by
  refine deed_cache_get fun v => ?_
  cases v with
  | some cached => exact tallies_pending rfl _
  | none =>
    refine deed_read rfl fun rows => deed_liftExcept nofun fun users _ => ?_
    exact deed_cache_set (tallies_pending rfl _)

theorem get_posts_deed (author_id tag : Option String) :
    (get_posts author_id tag).Obeys (deedMonitor (.get_posts author_id tag))
      (Tallies (.get_posts author_id tag)) .pending := by
  refine deed_cache_get fun v => ?_
  cases v with
  | some cached => exact tallies_pending rfl _
  | none =>
    refine deed_liftExcept nofun fun author _ => ?_
    refine deed_read rfl fun rows => deed_liftExcept nofun fun posts _ => ?_
    exact deed_cache_set (tallies_pending rfl _)

theorem posts_by_users_deed :
    posts_by_users.Obeys (deedMonitor .posts_by_users) (Tallies .posts_by_users) .pending := by
  refine deed_cache_get fun v => ?_
  cases v with
  | some cached => exact tallies_pending rfl _
  | none => exact deed_read rfl fun rows => deed_cache_set (tallies_pending rfl _)

theorem get_messages_deed (user_id : String) :
    (get_messages user_id).Obeys (deedMonitor (.get_messages user_id))
      (Tallies (.get_messages user_id)) .pending := by
  refine deed_liftExcept nofun fun user _ => deed_read rfl fun rows => ?_
  exact deed_liftExcept nofun fun messages _ => tallies_pending rfl _

theorem create_user_deed (user : UserCreate) :
    (create_user user).Obeys (deedMonitor (.create_user user)) (Tallies (.create_user user))
      .pending := by
  refine deed_read rfl fun (created_at : Nat) => ?_
  have hperforms : (Request.create_user user).Performs
      (.insert_one .users (user.model_dump ++ [("created_at", .date created_at)])) :=
    ⟨created_at, .register user created_at, .ofNat 0, rfl, .inl rfl, rfl⟩
  refine Prog.obeys_bind.mpr (Prog.obeys_tryCatch.mpr (Prog.obeys_perform.mpr
    ⟨fun _ => .inr ⟨rfl, hperforms⟩, fun r => ?_⟩))
  cases r with
  | ok inserted_id => exact deed_invalidate deed_readBack
  | error e =>
    -- the answer to the insertion may be lost, and the request is answered 400 all the same
    exact tallies_error (.httpException 400 e.str []) fun _ => next_error_ne_done (g := .pending) nofun
      (.insert_one .users _) e

theorem update_user_deed (user_id : String) (data : UserUpdate) :
    (update_user user_id data).Obeys (deedMonitor (.update_user user_id data))
      (Tallies (.update_user user_id data)) .pending := by
  unfold update_user
  show Prog.Obeys _ _ _ (if data.update_data = [] then _ else _)
  split_ifs
  · exact tallies_error _ fun _ => nofun
  · refine deed_liftExcept nofun fun user huser => ?_
    refine deed_write ⟨0, .edit data, user, rfl, .inr (toOption_oid huser), rfl⟩ fun (n : Nat) => ?_
    exact deed_matched (deed_invalidate_all deed_readBack)

theorem delete_user_deed (user_id : String) :
    (delete_user user_id).Obeys (deedMonitor (.delete_user user_id)) (Tallies (.delete_user user_id))
      .pending := by
  refine deed_liftExcept nofun fun user huser => ?_
  refine deed_write ⟨0, .remove, user, rfl, .inr (toOption_oid huser), rfl⟩ fun (n : Nat) => ?_
  exact deed_matched (deed_invalidate_all (tallies_done deleted))

theorem create_post_deed (post : PostCreate) :
    (create_post post).Obeys (deedMonitor (.create_post post)) (Tallies (.create_post post))
      .pending := by
  refine deed_liftExcept nofun fun author hauthor => deed_read rfl fun doc => ?_
  split_ifs
  · exact tallies_error _ fun _ => nofun
  · refine deed_read rfl fun (created_at : Nat) => ?_
    have hdeed : (Request.create_post post).deed created_at =
        some (.publish author post created_at) := by
      simp only [Request.deed, toOption_oid hauthor, Option.map_some]
    refine deed_write ⟨created_at, _, .ofNat 0, hdeed, .inl rfl, rfl⟩ fun (inserted_id : ObjectId) => ?_
    exact deed_invalidate_posts_cache deed_readBack

/-- The update of a post that is asked for. -/
theorem deed_updatePost {l : Request} {deed : Deed} {post : ObjectId} {update : Update}
    {created_at : Nat} (hdeed : l.deed created_at = some deed) (htarget : l.target = some post)
    (hcall : deed.call post = .update_one .posts (.field "_id" (.oid post)) update) :
    Prog.Obeys (deedMonitor l) (Tallies l) .pending (do
      let matched_count : Nat ← Prog.perform
        (Call.update_one .posts (.field "_id" (.oid post)) update)
      afterPostUpdate matched_count post) :=
  deed_write ⟨created_at, deed, post, hdeed, .inr htarget, hcall.symm⟩
    fun (_ : Nat) => deed_afterPostUpdate

theorem like_post_deed (post_id user_id : String) :
    (like_post post_id user_id).Obeys (deedMonitor (.like_post post_id user_id))
      (Tallies (.like_post post_id user_id)) .pending := by
  refine deed_liftExcept nofun fun post hpost => deed_liftExcept nofun fun user huser => ?_
  have hdeed : (Request.like_post post_id user_id).deed 0 = some (.like user) := by
    simp only [Request.deed, toOption_oid huser, Option.map_some]
  exact deed_updatePost hdeed (toOption_oid hpost) rfl

theorem unlike_post_deed (post_id user_id : String) :
    (unlike_post post_id user_id).Obeys (deedMonitor (.unlike_post post_id user_id))
      (Tallies (.unlike_post post_id user_id)) .pending := by
  refine deed_liftExcept nofun fun post hpost => deed_liftExcept nofun fun user huser => ?_
  have hdeed : (Request.unlike_post post_id user_id).deed 0 = some (.unlike user) := by
    simp only [Request.deed, toOption_oid huser, Option.map_some]
  exact deed_updatePost hdeed (toOption_oid hpost) rfl

theorem add_comment_deed (post_id user_id text : String) :
    (add_comment post_id user_id text).Obeys (deedMonitor (.add_comment post_id user_id text))
      (Tallies (.add_comment post_id user_id text)) .pending := by
  refine deed_liftExcept nofun fun user huser => deed_read rfl fun (created_at : Nat) => ?_
  refine deed_liftExcept nofun fun post hpost => ?_
  have hdeed : (Request.add_comment post_id user_id text).deed created_at =
      some (.comment user text created_at) := by
    simp only [Request.deed, toOption_oid huser, Option.map_some]
  exact deed_updatePost hdeed (toOption_oid hpost) rfl

theorem mark_message_as_read_deed (message_id : String) :
    (mark_message_as_read message_id).Obeys (deedMonitor (.mark_message_as_read message_id))
      (Tallies (.mark_message_as_read message_id)) .pending := by
  refine deed_liftExcept nofun fun message hmessage => ?_
  refine deed_write ⟨0, .markRead, message, rfl, .inr (toOption_oid hmessage), rfl⟩ fun (n : Nat) => ?_
  exact deed_matched (deed_invalidate deed_readBack)

theorem delete_message_deed (message_id : String) :
    (delete_message message_id).Obeys (deedMonitor (.delete_message message_id))
      (Tallies (.delete_message message_id)) .pending := by
  refine deed_liftExcept nofun fun message hmessage => ?_
  refine deed_write ⟨0, .discard, message, rfl, .inr (toOption_oid hmessage), rfl⟩ fun (n : Nat) => ?_
  exact deed_matched (deed_invalidate (tallies_done deleted))

theorem deed_check_rate_limit {message : MessageCreate} {client : Option String}
    {f : List (String × String) → Api Reply}
    (h : ∀ headers, (f headers).Obeys (deedMonitor (.create_message message client))
      (Tallies (.create_message message client)) .pending) :
    Prog.Obeys (deedMonitor (.create_message message client))
      (Tallies (.create_message message client)) .pending
      (check_rate_limit client "create_message" >>= f) := by
  have hlimit : ∀ window current, Prog.Obeys (deedMonitor (.create_message message client))
      (Tallies (.create_message message client)) .pending (limitReply window current >>= f) := by
    intro window current
    unfold limitReply
    split_ifs
    · exact tallies_error _ fun _ => nofun
    · exact h _
  rw [check_rate_limit_eq]
  refine deed_read_bind rfl fun (now : Nat) => deed_read_bind rfl fun (current : Int) => ?_
  unfold afterIncr
  split_ifs
  · exact deed_read_bind rfl fun (_ : Unit) => hlimit _ current
  · exact hlimit _ current

theorem create_message_deed (message : MessageCreate) (client : Option String) :
    (create_message message client).Obeys (deedMonitor (.create_message message client))
      (Tallies (.create_message message client)) .pending := by
  refine deed_check_rate_limit fun headers => ?_
  refine deed_liftExcept nofun fun from_ hfrom => deed_liftExcept nofun fun to_ hto => ?_
  refine deed_read rfl fun sender => ?_
  split_ifs
  · exact tallies_error _ fun _ => nofun
  · refine deed_read rfl fun receiver => ?_
    split_ifs
    · exact tallies_error _ fun _ => nofun
    · refine deed_read rfl fun (created_at : Nat) => ?_
      have hdeed : (Request.create_message message client).deed created_at =
          some (.send from_ to_ message created_at) := by
        simp only [Request.deed, toOption_oid hfrom, toOption_oid hto, Option.bind_some,
          Option.map_some]
      refine deed_write ⟨created_at, _, .ofNat 0, hdeed, .inl rfl, rfl⟩
        fun (inserted_id : ObjectId) => ?_
      refine deed_invalidate (deed_read rfl fun created => Prog.obeys_bind.mpr ?_)
      refine deed_replyWith created (fun e he => ?_) fun reply => tallies_done _
      apply tallies_error
      rw [he]
      exact nofun

/-- **Deeds.** -/
theorem handle_deed (r : Request) : (handle r).Obeys (deedMonitor r) (Tallies r) .pending := by
  cases r with
  | get_users login min_age => exact get_users_deed login min_age
  | create_user user => exact create_user_deed user
  | update_user user_id data => exact update_user_deed user_id data
  | delete_user user_id => exact delete_user_deed user_id
  | get_posts author_id tag => exact get_posts_deed author_id tag
  | create_post post => exact create_post_deed post
  | like_post post_id user_id => exact like_post_deed post_id user_id
  | unlike_post post_id user_id => exact unlike_post_deed post_id user_id
  | add_comment post_id user_id text => exact add_comment_deed post_id user_id text
  | get_messages user_id => exact get_messages_deed user_id
  | create_message message client => exact create_message_deed message client
  | mark_message_as_read message_id => exact mark_message_as_read_deed message_id
  | delete_message message_id => exact delete_message_deed message_id
  | posts_by_users => exact posts_by_users_deed

end SocialNetwork.MongoApi

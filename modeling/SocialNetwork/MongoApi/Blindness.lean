import SocialNetwork.MongoApi.Masking

/-!
# Requests that are blind to passwords

No request looks at a password that it reads, but for the users that it is answered with
(`handle_blind`); `create_user` is blind from the moment its user is inserted.
-/

namespace SocialNetwork.MongoApi

open DocStore KeyValue

/-! ## Programs that do not look at passwords -/

/-- The requests that are answered with users. -/
def Request.reveals : Request → Bool
  | get_users _ _ | create_user _ | update_user _ _ => true
  | _ => false

def Request.registers : Request → Bool
  | create_user _ => true
  | _ => false

/-- The call does not look at passwords, unless its request is answered with users. -/
def CallBlind (l : Request) : Call → Prop
  | .query (.find .users _ _) => l.reveals = true
  | .query (.aggregate coll p) => coll = .posts ∧ p = pipeline
  | .find_one .users filter | .delete_one .users filter => IgnoresPassword filter
  | .update_one .users filter update =>
    IgnoresPassword filter ∧ ∃ fs, update = { set := fs } ∧ "password" ∉ fs.map Prod.fst
  | .insert_one .users _ => False
  | .setex _ _ _ | .incr _ => l.registers = false
  | _ => True

section Programs

variable {l : Request} {α β : Type}

/-- What follows a user that is found does not depend on the password, or the user is shown. -/
def Indifferent (l : Request) : (c : Call) → (Except PyError c.Answer → Api α) → Prop
  | .find_one .users _, k => l.reveals = true ∨
      ∀ d d' : Doc, mask d = mask d' → k (.ok (some d : Option Doc)) = k (.ok (some d' : Option Doc))
  | _, _ => True

/-- No call of the program, and nothing it does with an answer, shows a password. -/
def Blind (l : Request) : Api α → Prop
  | .ret _ => True
  | .raise _ => True
  | .call c k => CallBlind l c ∧ Indifferent l c k ∧ ∀ r, Blind l (k r)

theorem Indifferent.map {c : Call} {k : Except PyError c.Answer → Api α} (h : Indifferent l c k)
    (f : Api α → Api β) : Indifferent l c fun r => f (k r) := by
  cases c with
  | find_one coll filter =>
    cases coll with
    | users => exact h.imp id fun heq d d' hd => congrArg f (heq d d' hd)
    | _ => trivial
  | _ => trivial

/-- A sequence of two blind programs. -/
theorem blind_bind {p : Api α} {f : α → Api β} (hp : Blind l p) (hf : ∀ a, Blind l (f a)) :
    Blind l (p >>= f) := by
  induction p with
  | ret a => exact hf a
  | raise e => trivial
  | call c k ih => exact ⟨hp.1, hp.2.1.map fun p => p >>= f, fun r => ih r (hp.2.2 r)⟩

/-- A blind program with a blind handler of its errors. -/
theorem blind_tryCatch {p : Api α} {h : PyError → Api α} (hp : Blind l p) (hh : ∀ e, Blind l (h e)) :
    Blind l (Prog.tryCatch p h) := by
  induction p with
  | ret a => trivial
  | raise e => exact hh e
  | call c k ih => exact ⟨hp.1, hp.2.1.map fun p => Prog.tryCatch p h, fun r => ih r (hp.2.2 r)⟩

theorem blind_liftExcept (x : Except PyError α) : Blind l (liftExcept x) := by
  cases x <;> trivial

/-- A call that does not look for a user. -/
theorem blind_perform {c : Call} (hc : CallBlind l c) (huser : ∀ filter, c ≠ .find_one .users filter) :
    Blind l (Prog.perform c) := by
  refine ⟨hc, ?_, fun r => ?_⟩
  · cases c with
    | find_one coll filter =>
      cases coll with
      | users => exact absurd rfl (huser filter)
      | _ => trivial
    | _ => trivial
  · cases r <;> trivial

/-- A user is looked for. -/
theorem blind_find_user {id : ObjectId} {f : Option Doc → Api β}
    (h : l.reveals = true ∨ ∀ d d' : Doc, mask d = mask d' → f (some d) = f (some d'))
    (hf : ∀ doc, Blind l (f doc)) : Blind l (find_one .users id >>= f) := by
  refine ⟨ignoresPassword_id id, h, fun r => ?_⟩
  cases r with
  | ok doc => exact hf doc
  | error e => trivial

/-- A user has to be there; whether one is found does not depend on the password. -/
theorem blind_require_user {id : ObjectId} {e : PyError} {p : Api β} (hp : Blind l p) :
    Blind l (find_one .users id >>= fun user =>
      if (user.getD []).isEmpty then Prog.raise e else p) := by
  refine blind_find_user (.inr ?_) fun user => ?_
  · intro d d' hd
    show (if d.isEmpty then _ else _) = if d'.isEmpty then _ else _
    rw [isEmpty_eq_of_mask hd]
  · split_ifs
    · trivial
    · exact hp

/-- Asking the cache sends a key only. -/
theorem blind_cache_get (key : String) : Blind l (cache_get key) :=
  blind_tryCatch (blind_bind (blind_perform trivial nofun) fun _ => trivial) fun _ => trivial

/-- A request that registers nobody stores no password. -/
theorem blind_cache_set (hl : l.registers = false) (key : String) (value : Value) :
    Blind l (cache_set key value) := blind_tryCatch (blind_perform hl nofun) fun _ => trivial

theorem blind_delete_scanned (prefix_ : String) : Blind l <| cache_delete_prefix prefix_ :=
  blind_tryCatch (blind_perform trivial nofun) fun _ => trivial

theorem blind_invalidate_posts_cache : Blind l invalidate_posts_cache :=
  blind_bind (blind_delete_scanned _) fun _ => blind_delete_scanned _

/-- A document of another collection is read. -/
theorem blind_find_other {coll : Coll} (hc : coll ≠ .users) (id : ObjectId) :
    Blind l (find_one coll id) := by
  have hblind : CallBlind l (.find_one coll (.field "_id" (.oid id))) := by
    cases coll with
    | users => exact absurd rfl hc
    | _ => trivial
  refine blind_perform hblind fun filter heq => hc ?_
  cases heq
  rfl

theorem blind_check_rate_limit (hl : l.registers = false) (client : Option String) :
    Blind l (check_rate_limit client "create_message") := by
  rw [check_rate_limit_eq]
  refine blind_bind (blind_perform trivial nofun) fun now => ?_
  refine blind_bind (blind_perform hl nofun) fun current => ?_
  have hlimit : ∀ window, Blind l (limitReply window current) := by
    intro window
    unfold limitReply
    split_ifs <;> trivial
  unfold afterIncr
  split_ifs
  · exact blind_bind (blind_perform trivial nofun) fun _ => hlimit _
  · exact hlimit _

/-- An update of a user names no password. -/
theorem update_data_fields (data : UserUpdate) : "password" ∉ data.update_data.map Prod.fst := by
  intro hf
  obtain ⟨x, hx, hname⟩ := List.mem_map.mp hf
  unfold UserUpdate.update_data at hx
  obtain ⟨y, hy, hxy⟩ := List.mem_filterMap.mp hx
  obtain ⟨v, -, rfl⟩ := Option.map_eq_some_iff.mp hxy
  have hfields : y.1 ∈ ["first_name", "last_name", "age", "interests"] := List.mem_map_of_mem hy
  have hfield : y.1 = "password" := hname
  rw [hfield] at hfields
  exact absurd hfields (by decide)

end Programs

/-! ## The endpoints -/

variable [Bson]

section Endpoints

variable {l : Request}

theorem blind_replyWith (doc : Option Doc) : Blind l (replyWith doc) := by
  cases doc with
  | none => trivial
  | some doc => exact blind_bind (blind_liftExcept _) fun _ => trivial

theorem blind_afterPostUpdate (matched_count : Nat) (post_id : ObjectId) :
    Blind l (afterPostUpdate matched_count post_id) := by
  unfold afterPostUpdate
  split_ifs
  · trivial
  · exact blind_bind blind_invalidate_posts_cache fun _ =>
      blind_bind (blind_find_other (by decide) _) fun _ => blind_replyWith _

theorem blind_afterUserInsert (hl : l.reveals = true) (id : ObjectId) : Blind l (afterUserInsert id) :=
  blind_bind (blind_delete_scanned _) fun _ => blind_find_user (.inl hl) fun _ => blind_replyWith _

omit [Bson] in
/-- What a write to users invalidates. -/
theorem blind_invalidate_all {f : Unit → Api Reply} (hf : Blind l (f ())) :
    Blind l (invalidate_users_cache >>= fun _ => invalidate_posts_cache >>= fun _ =>
      invalidate_messages_cache >>= f) :=
  blind_bind (blind_delete_scanned _) fun _ => blind_bind blind_invalidate_posts_cache fun _ =>
    blind_bind (blind_delete_scanned _) fun _ => hf

/-- An update of a post, and what follows it. -/
theorem blind_updatePost (post : ObjectId) (filter : Filter) (update : Update) :
    Blind l (do
      let matched_count : Nat ← Prog.perform (Call.update_one .posts filter update)
      afterPostUpdate matched_count post) :=
  blind_bind (blind_perform trivial nofun) fun _ => blind_afterPostUpdate _ _

theorem create_post_blind (post : PostCreate) : Blind (.create_post post) (create_post post) := by
  refine blind_bind (blind_liftExcept _) fun author => blind_require_user ?_
  refine blind_bind (blind_perform trivial nofun) fun _ => ?_
  refine blind_bind (blind_perform trivial nofun) fun _ => ?_
  exact blind_bind blind_invalidate_posts_cache fun _ =>
    blind_bind (blind_find_other (by decide) _) fun _ => blind_replyWith _

theorem create_message_blind (message : MessageCreate) (client : Option String) :
    Blind (.create_message message client) (create_message message client) := by
  refine blind_bind (blind_check_rate_limit rfl client) fun headers => ?_
  refine blind_bind (blind_liftExcept _) fun from_ => blind_bind (blind_liftExcept _) fun to_ => ?_
  refine blind_require_user (blind_require_user ?_)
  refine blind_bind (blind_perform trivial nofun) fun _ => ?_
  refine blind_bind (blind_perform trivial nofun) fun _ => ?_
  exact blind_bind (blind_delete_scanned _) fun _ =>
    blind_bind (blind_find_other (by decide) _) fun _ =>
      blind_bind (blind_replyWith _) fun _ => trivial

/-- Every request but the registration of a user is blind to passwords. -/
theorem handle_blind (hl : l.registers = false) : Blind l (handle l) := by
  cases l with
  | create_user user => cases hl
  | get_users login min_age =>
    refine blind_bind (blind_cache_get _) fun v => ?_
    cases v with
    | some cached => trivial
    | none =>
      refine blind_bind (blind_perform rfl nofun) fun rows => ?_
      refine blind_bind (blind_liftExcept _) fun users => ?_
      exact blind_bind (blind_cache_set rfl _ _) fun _ => trivial
  | update_user user_id data =>
    show Blind _ (if _ then _ else _)
    split_ifs
    · trivial
    · refine blind_bind (blind_liftExcept _) fun user => ?_
      -- PATCH has no password among its fields
      refine blind_bind (blind_perform ⟨ignoresPassword_id user, _, rfl, update_data_fields data⟩ nofun)
        fun matched_count => ?_
      show Blind _ (if _ then _ else _)
      split_ifs
      · trivial
      · exact blind_invalidate_all (blind_find_user (.inl rfl) fun _ => blind_replyWith _)
  | delete_user user_id =>
    refine blind_bind (blind_liftExcept _) fun user => ?_
    refine blind_bind (blind_perform (ignoresPassword_id user) nofun) fun deleted_count => ?_
    show Blind _ (if _ then _ else _)
    split_ifs
    · trivial
    · exact blind_invalidate_all trivial
  | get_posts author_id tag =>
    refine blind_bind (blind_cache_get _) fun v => ?_
    cases v with
    | some cached => trivial
    | none =>
      refine blind_bind (blind_liftExcept _) fun author => ?_
      refine blind_bind (blind_perform trivial nofun) fun rows => ?_
      refine blind_bind (blind_liftExcept _) fun posts => ?_
      exact blind_bind (blind_cache_set rfl _ _) fun _ => trivial
  | create_post post => exact create_post_blind post
  | like_post post_id user_id =>
    exact blind_bind (blind_liftExcept _) fun _ => blind_bind (blind_liftExcept _) fun _ =>
      blind_updatePost _ _ _
  | unlike_post post_id user_id =>
    exact blind_bind (blind_liftExcept _) fun _ => blind_bind (blind_liftExcept _) fun _ =>
      blind_updatePost _ _ _
  | add_comment post_id user_id text =>
    exact blind_bind (blind_liftExcept _) fun _ => blind_bind (blind_perform trivial nofun) fun _ =>
      blind_bind (blind_liftExcept _) fun _ => blind_updatePost _ _ _
  | get_messages user_id =>
    refine blind_bind (blind_liftExcept _) fun user => ?_
    refine blind_bind (blind_perform trivial nofun) fun rows => ?_
    exact blind_bind (blind_liftExcept _) fun _ => trivial
  | create_message message client => exact create_message_blind message client
  | mark_message_as_read message_id =>
    refine blind_bind (blind_liftExcept _) fun message => ?_
    refine blind_bind (blind_perform trivial nofun) fun matched_count => ?_
    show Blind _ (if _ then _ else _)
    split_ifs
    · trivial
    · exact blind_bind (blind_delete_scanned _) fun _ =>
        blind_bind (blind_find_other (by decide) _) fun _ => blind_replyWith _
  | delete_message message_id =>
    refine blind_bind (blind_liftExcept _) fun message => ?_
    refine blind_bind (blind_perform trivial nofun) fun deleted_count => ?_
    show Blind _ (if _ then _ else _)
    split_ifs
    · trivial
    · exact blind_bind (blind_delete_scanned _) fun _ => trivial
  | posts_by_users =>
    refine blind_bind (blind_cache_get _) fun v => ?_
    cases v with
    | some cached => trivial
    | none =>
      refine blind_bind (blind_perform ⟨rfl, rfl⟩ nofun) fun rows => ?_
      exact blind_bind (blind_cache_set rfl _ _) fun _ => trivial

end Endpoints

end SocialNetwork.MongoApi

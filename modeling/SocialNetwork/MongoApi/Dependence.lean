import SocialNetwork.MongoApi.ServiceTheorems

/-!
# What a cached answer depends on

A cached answer is read from some collections (`Request.reads`). A call that changes one of them
owes the invalidation of the answer (`computes_or_owed`), with one exception: a new user changes
no statistics, since no post names an id that has not been given out (`Db.Known`).
-/

namespace SocialNetwork.MongoApi

open DocStore KeyValue

/-! ## Ids -/

/-- The ids of authors of posts have been given out, like those of documents. -/
structure Db.Known (db : Db) : Prop where
  authors : ∀ post ∈ db.docs .posts, ∃ id ∈ db.issued, Doc.get post "author_id" = some (.oid id)

theorem Db.known_empty : Db.empty.Known := ⟨nofun⟩

section Known

variable {db db' : Db} {c : Coll}

/-- The author of a post stays the same. -/
theorem PostUpdate.get_author {update : Update} (h : PostUpdate update) {d d' : Doc}
    (happly : update.apply d = some d') : d'.get "author_id" = d.get "author_id" := by
  cases h with
  | like user =>
    rw [Update.apply_addToSet] at happly
    rw [arrayField_eq_some happly]
    exact Doc.get_set_of_ne d _ (show "author_id" ≠ "likes" by decide)
  | unlike user =>
    rw [Update.apply_pull] at happly
    rcases pullField_eq_some happly with rfl | rfl
    · rfl
    · exact Doc.get_set_of_ne d _ (show "author_id" ≠ "likes" by decide)
  | comment user text created_at =>
    rw [Update.apply_push] at happly
    rw [arrayField_eq_some happly]
    exact Doc.get_set_of_ne d _ (show "author_id" ≠ "comments" by decide)

/-- Documents with the same ids and authors. -/
theorem Db.Known.of_docs (h : db.Known) (hissued : ∀ id ∈ db.issued, id ∈ db'.issued)
    (hposts : ∀ post ∈ db'.docs .posts, ∃ d ∈ db.docs .posts,
      Doc.get post "author_id" = d.get "author_id") : db'.Known := by
  refine ⟨fun post hpost => ?_⟩
  obtain ⟨d, hd, hget⟩ := hposts post hpost
  obtain ⟨id, hid, hdid⟩ := h.authors d hd
  exact ⟨id, hissued id hid, hget.trans hdid⟩

theorem Db.Known.insert_one (h : db.Known) {id : ObjectId} {doc : Doc}
    (hinsert : db.insert_one c id doc = some db')
    (hdoc : c = .posts → ∃ author ∈ db.issued, doc.get "author_id" = some (.oid author)) :
    db'.Known := by
  have hissued : db'.issued = db.issued ++ [id] := (Db.docs_insert_one hinsert).2.2
  have hmono : ∀ i ∈ db.issued, i ∈ db'.issued := by
    intro i hi
    rw [hissued]
    exact List.mem_append_left _ hi
  refine ⟨fun post hpost => ?_⟩
  rcases Db.mem_insert_one hinsert hpost with hpost | ⟨hc, rfl⟩
  · obtain ⟨i, hi, hget⟩ := h.authors post hpost
    exact ⟨i, hmono i hi, hget⟩
  · obtain ⟨author, hauthor, hget⟩ := hdoc hc.symm
    exact ⟨author, hmono author hauthor, hget⟩

theorem Db.Known.update_one (h : db.Known) {filter : Filter} {update : Update} {n : Nat}
    (hupdate : c = .posts → PostUpdate update)
    (hresult : db.update_one c filter update = some (n, db')) : db'.Known := by
  have hissued : db'.issued = db.issued := (Db.docs_update_one hresult).2.2
  apply h.of_docs
  · intro id hid
    rw [hissued]
    exact hid
  · intro post hpost
    rcases Db.mem_update_one hresult hpost with hpost | ⟨rfl, d, hd, -, happly, -⟩
    · exact ⟨post, hpost, rfl⟩
    · exact ⟨d, hd, (hupdate rfl).get_author happly⟩

theorem Db.Known.delete_one (h : db.Known) (c : Coll) (filter : Filter) :
    (db.delete_one c filter).2.Known := by
  have hissued : (db.delete_one c filter).2.issued = db.issued :=
    (Db.docs_delete_one db c filter).2.2
  apply h.of_docs
  · intro id hid
    rw [hissued]
    exact hid
  · intro post hpost
    exact ⟨post, Db.mem_delete_one hpost, rfl⟩

end Known

/-! ## Statistics -/

/-- The statistics, from the groups of posts. -/
theorem pipeline_run (env : Coll → List Doc) (posts : List Doc) : pipeline.run env posts =
    (Stage.runGroup (.field ["author_id"])
        [("posts_count", .int 1), ("likes_count", .size (.field ["likes"]))]
      (DocStore.find (.all [.ne "content" (.str "")]) posts)).bind fun groups =>
        Stage.runProject ["posts_count", "likes_count"] [("user_id", .toString (.field ["_id"])),
          ("login", .field ["author", "login"])]
          (Stage.runUnwind "author" (Stage.runLookup (env .users) "_id" "_id" "author" groups)) := by
  show (Stage.runGroup _ _ _ >>= fun groups => Stage.runProject _ _
    (Stage.runUnwind "author" (Stage.runLookup (env .users) "_id" "_id" "author" groups)) >>= pure) = _
  simp only [bind_pure]
  rfl

/-- A user with a new id changes no statistics. -/
theorem pipeline_run_newUser {db : Db} (h : db.Known) {env : Coll → List Doc} {user : Doc}
    {id : ObjectId} (hid : user.get "_id" = some (.oid id)) (hnew : id ∉ db.issued)
    (husers : env .users = db.docs .users ++ [user]) :
    pipeline.run env (db.docs .posts) = pipeline.run db.docs (db.docs .posts) := by
  rw [pipeline_run, pipeline_run, husers]
  cases hgroups : Stage.runGroup (.field ["author_id"])
      [("posts_count", .int 1), ("likes_count", .size (.field ["likes"]))]
      (DocStore.find (.all [.ne "content" (.str "")]) (db.docs .posts)) with
  | error e => rfl
  | ok groups =>
    show Stage.runProject _ _ (Stage.runUnwind "author" (Stage.runLookup _ _ _ _ groups)) =
      Stage.runProject _ _ (Stage.runUnwind "author" (Stage.runLookup _ _ _ _ groups))
    rw [Stage.runLookup_congr]
    intro group hgroup
    -- the `_id` of a group is an author, and no author has the new id
    obtain ⟨post, hpost, v, hv, hget⟩ := Stage.id_of_mem_runGroup hgroups hgroup
    obtain ⟨author, hauthor, hpostAuthor⟩ := h.authors post (List.mem_of_mem_filter hpost)
    have hvalue : v = some (.oid author) := by
      rw [← hpostAuthor]
      exact (Except.ok.inj hv).symm
    have hne : fieldEq (user.get "_id") ((group.get "_id").getD .null) = false := by
      rw [hid, hget, hvalue]
      apply decide_eq_false
      intro heq
      cases heq
      exact hnew hauthor
    unfold Stage.joined
    rw [List.filter_append, List.filter_singleton, hne]
    exact List.append_nil _

/-! ## What a request knows -/

section Informed

variable {l : Request} {g : Ghost} {c : Call} {w w' : World} {ω : Choice}

/-- Only `find_one` adds to the users that were there. -/
theorem Ghost.next_seen (hc : ∀ filter, c ≠ .find_one .users filter) (r : Except PyError c.Answer) :
    (g.next c r).seen = g.seen := by
  cases c with
  | find_one coll filter =>
    cases coll with
    | users => exact absurd rfl (hc filter)
    | _ => cases r <;> rfl
  | update_one coll filter update =>
    cases r with
    | error e => rfl
    | ok n => exact g.seen_oweIf _ n
  | delete_one coll filter =>
    cases r with
    | error e => rfl
    | ok n => exact g.seen_oweIf _ n
  | incr key =>
    cases r with
    | error e => rfl
    | ok n =>
      show (g.count n).seen = g.seen
      unfold Ghost.count
      split <;> rfl
  | _ => cases r <;> rfl

/-- The users that a request has seen have ids that were given out. -/
theorem seen_step (hissued : ∀ id ∈ w.db.issued, id ∈ w'.db.issued)
    (hseen : ∀ id ∈ g.seen, id ∈ w.db.issued) {x : Except PyError c.Answer}
    (hx : execute ω l c w = some (w', x)) : ∀ id ∈ (g.next c x).seen, id ∈ w'.db.issued := by
  by_cases hc : ∃ filter, c = .find_one .users filter
  · obtain ⟨filter, rfl⟩ := hc
    obtain ⟨rfl, rfl⟩ := Prod.mk.inj (Option.some.inj hx)
    cases hread : readOne (findOne filter (w.db.docs .users)) with
    | error e => exact hseen
    | ok found =>
      cases found with
      | none => exact hseen
      | some doc =>
        have hfound : findOne filter (w.db.docs .users) = some doc := (readOne_eq_ok hread).symm
        intro id hid
        rcases List.mem_append.mp hid with hid | hid
        · unfold idOf at hid
          split at hid
          · next i =>
            rw [List.mem_singleton.mp hid]
            obtain ⟨hmem, hget⟩ := Validated.findOne_id (c := w.db.users) hfound
            exact Db.mem_issued (c := .users) hmem hget
          · cases hid
        · exact hseen id hid
  · rw [Ghost.next_seen (fun filter heq => hc ⟨filter, heq⟩)]
    exact fun id hid => hissued id (hseen id hid)

theorem execute_issued {x : Except PyError c.Answer} (hx : execute ω l c w = some (w', x)) :
    ∀ id ∈ w.db.issued, id ∈ w'.db.issued := by
  intro id hid
  cases c with
  | insert_one coll doc =>
    simp only [execute] at hx
    split_ifs at hx
    split at hx
    · next db hdb =>
      cases hx
      obtain ⟨-, -, hissued⟩ := Db.docs_insert_one hdb
      rw [hissued]
      exact List.mem_append_left _ hid
    · cases hx
      exact hid
  | update_one coll filter update =>
    simp only [execute] at hx
    split at hx
    · next n db hdb =>
      cases hx
      rw [(Db.docs_update_one hdb).2.2]
      exact hid
    · cases hx
      exact hid
  | delete_one coll filter =>
    cases hx
    rw [(Db.docs_delete_one w.db coll filter).2.2]
    exact hid
  | _ =>
    rw [(execute_frame hx).db rfl]
    exact hid

variable [Bson]

theorem execute_known (hdb : w.db.Known) (hallows : g.allows l c)
    (hseen : ∀ id ∈ g.seen, id ∈ w.db.issued) {x : Except PyError c.Answer}
    (hx : execute ω l c w = some (w', x)) : w'.db.Known := by
  cases c with
  | insert_one coll doc =>
    simp only [execute] at hx
    split_ifs at hx
    split at hx
    · next db hinsert =>
      cases hx
      refine hdb.insert_one hinsert fun hc => ?_
      -- a post is inserted for an author that the request has seen
      subst hc
      obtain ⟨author, hauthor, post, created_at, rfl⟩ := hallows
      exact ⟨author, hseen author hauthor, rfl⟩
    · cases hx
      exact hdb
  | update_one coll filter update =>
    simp only [execute] at hx
    split at hx
    · next n db hupdate =>
      cases hx
      refine hdb.update_one (fun hc => ?_) hupdate
      subst hc
      exact hallows
    · cases hx
      exact hdb
  | delete_one coll filter =>
    cases hx
    exact hdb.delete_one coll filter
  | _ =>
    rw [(execute_frame hx).db rfl]
    exact hdb

end Informed

/-! ## Answers -/

section Answers

variable {r l : Request} {db db' : Db} {g : Ghost} {c : Call} {w w' : World} {ω : Choice} {p : String}
  {value : Value}

/-- The collections that a cached answer is read from. -/
def Request.reads : Request → List Coll
  | get_users _ _ => [.users]
  | get_posts _ _ => [.posts]
  | posts_by_users => [.posts, .users]
  | _ => []

/-- An update or a deletion in a collection changes what is read from it. -/
theorem mem_changes {coll : Coll} (hp : r.cache_prefix = some p) (hcoll : coll ∈ r.reads)
    (filter : Filter) (update : Update) : p ∈ (Call.update_one coll filter update).changes ∧
      p ∈ (Call.delete_one coll filter).changes := by
  cases r with
  | get_users login min_age =>
    cases hp
    rw [List.mem_singleton.mp hcoll]
    simp [Call.changes]
  | get_posts author_id tag =>
    cases hp
    rw [List.mem_singleton.mp hcoll]
    simp [Call.changes]
  | posts_by_users =>
    cases hp
    cases coll with
    | users => simp [Call.changes]
    | posts => simp [Call.changes]
    | messages => exact absurd hcoll (by decide)
  | _ => cases hp

/-- So does an insertion, but for users in the statistics. -/
theorem mem_changes_insert {coll : Coll} (hp : r.cache_prefix = some p) (hcoll : coll ∈ r.reads)
    (doc : Doc) : p ∈ (Call.insert_one coll doc).changes ∨ (coll = .users ∧ r = .posts_by_users) := by
  cases r with
  | get_users login min_age =>
    cases hp
    rw [List.mem_singleton.mp hcoll]
    exact .inl List.mem_cons_self
  | get_posts author_id tag =>
    cases hp
    rw [List.mem_singleton.mp hcoll]
    exact .inl List.mem_cons_self
  | posts_by_users =>
    cases hp
    cases coll with
    | users => exact .inr ⟨rfl, rfl⟩
    | posts => exact .inl (List.mem_cons_of_mem _ List.mem_cons_self)
    | messages => exact absurd hcoll (by decide)
  | _ => cases hp

variable [Bson]

theorem query?_get_posts {author_id tag : Option String} {q : Query}
    (h : Request.query? (.get_posts author_id tag) = some q) :
    ∃ author, q = .find .posts (postsQuery author tag) [("created_at", true)] := by
  simp only [Request.query?] at h
  split at h
  · exact ⟨_, (Option.some.inj h).symm⟩
  · cases h

/-- The answer depends on what its query returns. -/
theorem Computes.congr (h : Computes r db value)
    (hfind : ∀ coll filter sort, r.query? = some (.find coll filter sort) → db'.docs coll = db.docs coll)
    (hstats : r = .posts_by_users →
      pipeline.run db'.docs (db'.docs .posts) = pipeline.run db.docs (db.docs .posts)) :
    Computes r db' value := by
  obtain ⟨q, rows, body, hq, hreturns, hbody, rfl⟩ := h
  refine ⟨q, rows, body, hq, ?_, hbody, rfl⟩
  cases q with
  | find coll filter sort =>
    simp only [Query.Returns] at hreturns ⊢
    rw [hfind coll filter sort hq]
    exact hreturns
  | aggregate coll pipeline' =>
    -- the statistics are the only request with a pipeline
    have hr : r = .posts_by_users ∧ coll = .posts ∧ pipeline' = pipeline := by
      cases r with
      | posts_by_users =>
        cases hq
        exact ⟨rfl, rfl, rfl⟩
      | get_posts author_id tag =>
        obtain ⟨author, hfind⟩ := query?_get_posts hq
        cases hfind
      | _ => cases hq
    obtain ⟨hr, rfl, rfl⟩ := hr
    show Pipeline.Returns db'.docs pipeline (db'.docs .posts) rows ∧ Readable rows
    unfold Pipeline.Returns
    rw [hstats hr]
    exact hreturns

/-- The query of a cached `GET` is made on a collection it reads. -/
theorem mem_reads_of_find {coll : Coll} {filter : Filter} {sort : List (String × Bool)}
    (h : r.query? = some (.find coll filter sort)) : coll ∈ r.reads := by
  cases r with
  | get_users login min_age =>
    cases h
    exact List.mem_cons_self
  | get_posts author_id tag =>
    obtain ⟨author, hfind⟩ := query?_get_posts h
    cases hfind
    exact List.mem_cons_self
  | _ => cases h

/-- The answer depends on the collections it is read from. -/
theorem Computes.of_reads (h : Computes r db value)
    (hdocs : ∀ coll ∈ r.reads, db'.docs coll = db.docs coll) : Computes r db' value := by
  refine h.congr (fun coll filter sort hq => hdocs coll (mem_reads_of_find hq)) ?_
  rintro rfl
  rw [pipeline_run, pipeline_run, hdocs .posts (by decide), hdocs .users (by decide)]

/-- **Dependence.** A call that may change an answer owes its invalidation. -/
theorem computes_or_owed (hdb : w.db.Known) (hp : r.cache_prefix = some p)
    {x : Except PyError c.Answer} (hx : execute ω l c w = some (w', x))
    (h : Computes r w.db value) : Computes r w'.db value ∨ p ∈ (g.next c x).owed := by
  have hother : ∀ coll, coll ∉ r.reads → (∀ c', c' ≠ coll → w'.db.docs c' = w.db.docs c') →
      Computes r w'.db value := by
    intro coll hcoll hdocs
    refine h.of_reads fun c' hc' => hdocs c' fun heq => ?_
    rw [heq] at hc'
    exact hcoll hc'
  cases c with
  | insert_one coll doc =>
    simp only [execute] at hx
    split_ifs at hx with hnew
    split at hx
    · next db hinsert =>
      cases hx
      obtain ⟨hdocs, hrest, -⟩ := Db.docs_insert_one hinsert
      by_cases hcoll : coll ∈ r.reads
      · rcases mem_changes_insert hp hcoll doc with hchanges | ⟨rfl, rfl⟩
        · exact .inr (List.mem_append_right _ hchanges)
        · left
          have hposts : db.docs .posts = w.db.docs .posts := hrest .posts (by decide)
          -- the statistics are no `find`
          have haggregate : ∀ coll filter sort, Request.posts_by_users.query? ≠
              some (.find coll filter sort) := by
            intro coll filter sort hq
            cases hq
          refine h.congr (fun coll filter sort hq => absurd hq (haggregate coll filter sort)) fun _ => ?_
          show pipeline.run db.docs (db.docs .posts) = _
          rw [hposts]
          exact pipeline_run_newUser hdb rfl hnew hdocs
      · exact .inl (hother coll hcoll hrest)
    · cases hx
      exact .inl h
  | update_one coll filter update =>
    simp only [execute] at hx
    split at hx
    · next n db hupdate =>
      cases hx
      obtain ⟨hdocs, hrest, -⟩ := Db.docs_update_one hupdate
      by_cases hcoll : coll ∈ r.reads
      · rcases hdocs with ⟨l₁, d, l₂, d', -, -, -, rfl, -, -⟩ | ⟨-, rfl, hsame⟩
        · exact .inr (List.mem_append_right _ (mem_changes hp hcoll filter update).1)
        · left
          refine h.of_reads fun c' _ => ?_
          by_cases hc : c' = coll
          · subst hc
            exact hsame
          · exact hrest c' hc
      · exact .inl (hother coll hcoll hrest)
    · cases hx
      exact .inl h
  | delete_one coll filter =>
    cases hx
    obtain ⟨hdocs, hrest, -⟩ := Db.docs_delete_one w.db coll filter
    by_cases hcoll : coll ∈ r.reads
    · rcases hdocs with ⟨l₁, d, l₂, -, -, -, hone, -⟩ | ⟨-, -, -, hsame⟩
      · right
        show p ∈ (if (w.db.delete_one coll filter).1 = 0 then g else g.owe _).owed
        rw [hone]
        exact List.mem_append_right _ (mem_changes hp hcoll filter {}).2
      · left
        refine h.of_reads fun c' _ => ?_
        by_cases hc : c' = coll
        · subst hc
          exact hsame
        · exact hrest c' hc
    · exact .inl (hother coll hcoll hrest)
  | _ =>
    rw [(execute_frame hx).db rfl]
    exact .inl h

end Answers

end SocialNetwork.MongoApi

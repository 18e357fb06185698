import SocialNetwork.Lib.Roster
import SocialNetwork.MongoApi.CoherenceTheorems
import SocialNetwork.MongoApi.Sources

/-!
# Where answers come from

In any run, whatever is interleaved and whatever fails, a read is answered with what its query
returned while it was in flight, or with what another read of the same key has stored in the cache
less than a minute before, and had read while it was in flight itself (`answers_explained`). A request
is known by the number of the action with which it arrived; two that ask for the same are two.
-/

namespace SocialNetwork.MongoApi

open DocStore KeyValue Runs

/-! ## One call -/

section Calls

variable {l : Request} {c : Call} {w w' : World} {aux : Option Scan} {outcome : Outcome}

theorem exec_query {q : Query} {docs : List Doc}
    (h : exec l (.query q) aux outcome w = some (w', .inr (.ok docs))) : q.Returns w.db docs := by
  rcases exec_atomic rfl h with ⟨ω, x, -, hx, hr⟩ | ⟨ω, x, -, -, hr⟩ | ⟨-, -, hr⟩
  · cases hr
    simp only [execute] at hx
    split at hx
    · cases hx
    · split_ifs at hx with hreturns
      cases hx
      exact hreturns
  · cases hr
  · cases hr

theorem exec_get {key : String} {value : Value}
    (h : exec l (.get key) aux outcome w = some (w', .inr (.ok (some value)))) :
    ∃ e, w.redis.lookup w.now key = some e ∧ e.value = value := by
  rcases exec_atomic rfl h with ⟨ω, x, -, hx, hr⟩ | ⟨ω, x, -, -, hr⟩ | ⟨-, -, hr⟩
  · cases hr
    simp only [execute] at hx
    exact Option.map_eq_some_iff.mp (Except.ok.inj (Prod.mk.inj (Option.some.inj hx)).2)
  · cases hr
  · cases hr

/-- An entry that no `GET` has stored is a count. -/
def Counts (w : World) : Prop :=
  ∀ e ∈ w.redis.entries, e.tag.cache_key = none → ∃ client window, e.key = rateKey client window

theorem exec_counts [Bson] {g : Ghost} (hw : Counts w) (hallows : g.allows l c)
    (horigin : ∀ e ∈ w'.redis.entries, Origin l c w w' e) : Counts w' := by
  intro e he hnone
  cases horigin e he with
  | kept hold => exact hw e hold hnone
  | stored key ttl value hc hnext heq =>
    subst hc heq
    exact absurd (hallows.1.symm.trans hnone) nofun
  | counted key hc hnext heq =>
    subst hc heq
    obtain ⟨message, client, window, -, -, hkey⟩ := hallows
    exact ⟨client, window, hkey⟩
  | changed x hx hc heq =>
    rw [heq.1]
    exact hw x hx (heq.2.2.2 ▸ hnone)

/-- What a `GET` finds under its key has been stored by a `GET` with the same key. -/
theorem found_of_lookup (hstored : Stored w) (hcounts : Counts w) {key : String}
    (hkey : l.cache_key = some key) {e : Entry Value Request}
    (h : w.redis.lookup w.now key = some e) :
    e ∈ w.redis.entries ∧ w.now < e.stored_at + CACHE_TTL * 1000 ∧ e.tag.cache_key = some key := by
  have he := List.mem_of_find?_eq_some h
  have hfound := List.find?_some h
  simp only [Bool.and_eq_true, decide_eq_true_eq] at hfound
  obtain ⟨hekey, hlive⟩ := hfound
  cases htag : e.tag.cache_key with
  | none =>
    obtain ⟨client, window, hrate⟩ := hcounts e he htag
    exact absurd (hekey.symm.trans hrate) (cache_key_ne_rateKey hkey client window)
  | some key' =>
    obtain ⟨hsame, hexpires⟩ := hstored.cached e he key' htag
    refine ⟨he, ?_, ?_⟩
    · unfold Entry.live at hlive
      rw [hexpires] at hlive
      exact of_decide_eq_true hlive
    · rw [← hekey, hsame]

theorem writes_of_cache_key {r : Request} {key : String} (h : r.cache_key = some key) :
    r.writes = false := by
  cases r with
  | get_users login min_age => rfl
  | get_posts author_id tag => rfl
  | posts_by_users => rfl
  | _ => cases h

end Calls

/-! ## The past of a run -/

/-- What an action does to the requests in flight. -/
def Action.move : Action → Move
  | request _ => .arrive
  | finish i => .leave i
  | call _ _ | tick _ => .stay

/-- Who is in flight after the actions, and who has been answered. -/
abbrev roster (as : List Action) : Roster := Roster.of Action.move as

/-- The `k`-th answer is given to the request that arrived with the action `n₀`. -/
abbrev AnswersTo (as : List Action) (k n₀ : Nat) : Prop := Roster.AnswersTo Action.move as k n₀

/-- At the moment `n` the request that arrived with the action `n₀` is in flight. -/
structure InFlight (as : List Action) (n n₀ : Nat) (r : Request) : Prop where
  arrived : as[n₀]? = some (.request r)
  flying : n₀ ∈ (roster (as.take n)).flying

theorem arrived_concat {as : List Action} {n₀ : Nat} {r : Request}
    (h : as[n₀]? = some (.request r)) (a : Action) :
    (as ++ [a])[n₀]? = some (.request r) := by
  obtain ⟨hlt, -⟩ := List.getElem?_eq_some_iff.mp h
  rw [List.getElem?_append_left hlt]
  exact h

/-- What has happened is not changed by what follows. -/
theorem InFlight.concat {as : List Action} {n n₀ : Nat} {r : Request} (h : InFlight as n n₀ r)
    (hn : n ≤ as.length) (a : Action) :
    InFlight (as ++ [a]) n n₀ r := by
  refine ⟨arrived_concat h.arrived a, ?_⟩
  rw [List.take_append_of_le_length hn]
  exact h.flying

section Reads

variable [Bson]

/-- At the moment `n` the request was in flight, and its query returned the rows. -/
def ReadAt (db : Db) (as : List Action) (n n₀ : Nat) (r : Request) (docs : List Doc) : Prop :=
  ∃ m q, At step (State.init db) as n m ∧ InFlight as n n₀ r ∧ r.read? = some q ∧
    q.Returns m.shared.db docs

/-- The entry was stored, before the moment `n`, by a request that was in flight, and is what this
request had read. -/
def Filled (db : Db) (as : List Action) (n : Nat) (e : Entry Value Request) : Prop :=
  ∃ n₀ n₁ n₂ m docs body, n₁ ≤ n₂ ∧ n₂ ≤ n ∧ ReadAt db as n₁ n₀ e.tag docs ∧
    At step (State.init db) as n₂ m ∧ InFlight as n₂ n₀ e.tag ∧ m.shared.now = e.stored_at ∧
    e.tag.encode docs = .ok body ∧ e.value = json_dumps body

/-- At the moment `n` the request was in flight, and found the entry under its key. -/
def FoundAt (db : Db) (as : List Action) (n n₀ : Nat) (r : Request) (e : Entry Value Request) :
    Prop :=
  ∃ m key, At step (State.init db) as n m ∧ InFlight as n n₀ r ∧ e ∈ m.shared.redis.entries ∧
    m.shared.now < e.stored_at + CACHE_TTL * 1000 ∧ r.cache_key = some key ∧
    e.tag.cache_key = some key

/-- The answer to the request that arrived with the action `n₀`, a read. -/
inductive Explained (db : Db) (as : List Action) (n₀ : Nat) (r : Request) (reply : Reply) : Prop
  | read (n : Nat) (docs : List Doc) (hread : ReadAt db as n n₀ r docs)
    (hbody : r.encode docs = .ok reply.body) (hheaders : reply.headers = r.missHeaders)
  | cached (n : Nat) (e : Entry Value Request) (hfound : FoundAt db as n n₀ r e)
    (hfilled : Filled db as n e) (hbody : json_loads e.value = some reply.body)
    (hheaders : reply.headers = [("X-Cache", "HIT")])

/-- The source of a request in flight is one. -/
inductive Grounded (db : Db) (as : List Action) (n₀ : Nat) (r : Request) : Source → Prop
  | unread : Grounded db as n₀ r .unread
  | rows (n : Nat) (docs : List Doc) (h : ReadAt db as n n₀ r docs) : Grounded db as n₀ r (.rows docs)
  | hit (n : Nat) (e : Entry Value Request) (hfound : FoundAt db as n n₀ r e)
    (hfilled : Filled db as n e) : Grounded db as n₀ r (.hit e.value)

section Past

variable {db : Db} {as : List Action} {n n₀ : Nat} {r : Request}

theorem ReadAt.concat {docs : List Doc} (h : ReadAt db as n n₀ r docs) (a : Action) :
    ReadAt db (as ++ [a]) n n₀ r docs := by
  obtain ⟨m, q, hm, hflight, hrest⟩ := h
  exact ⟨m, q, hm.concat a, hflight.concat hm.1 a, hrest⟩

theorem Filled.concat {e : Entry Value Request} (h : Filled db as n e) (a : Action) :
    Filled db (as ++ [a]) n e := by
  obtain ⟨n₀, n₁, n₂, m, docs, body, h₁, h₂, hread, hm, hflight, hrest⟩ := h
  exact ⟨n₀, n₁, n₂, m, docs, body, h₁, h₂, hread.concat a, hm.concat a, hflight.concat hm.1 a, hrest⟩

theorem Filled.mono {n' : Nat} {e : Entry Value Request} (h : Filled db as n e) (hn : n ≤ n') :
    Filled db as n' e := by
  obtain ⟨n₀, n₁, n₂, m, docs, body, h₁, h₂, hrest⟩ := h
  exact ⟨n₀, n₁, n₂, m, docs, body, h₁, h₂.trans hn, hrest⟩

theorem FoundAt.concat {e : Entry Value Request} (h : FoundAt db as n n₀ r e) (a : Action) :
    FoundAt db (as ++ [a]) n n₀ r e := by
  obtain ⟨m, key, hm, hflight, hrest⟩ := h
  exact ⟨m, key, hm.concat a, hflight.concat hm.1 a, hrest⟩

theorem Grounded.concat {g : Source} (h : Grounded db as n₀ r g) (a : Action) :
    Grounded db (as ++ [a]) n₀ r g := by
  cases h with
  | unread => exact .unread
  | rows n docs h => exact .rows n docs (h.concat a)
  | hit n e hfound hfilled => exact .hit n e (hfound.concat a) (hfilled.concat a)

theorem Explained.concat {reply : Reply} (h : Explained db as n₀ r reply) (a : Action) :
    Explained db (as ++ [a]) n₀ r reply := by
  cases h with
  | read n docs hread hbody hheaders => exact .read n docs (hread.concat a) hbody hheaders
  | cached n e hfound hfilled hbody hheaders =>
    exact .cached n e (hfound.concat a) (hfilled.concat a) hbody hheaders

end Past

/-! ## Runs -/

/-- The request in flight keeps to its protocols, and what it will answer from is explained. -/
structure Tracked (db : Db) (as : List Action) (n₀ : Nat) (task : Task) : Prop where
  arrived : as[n₀]? = some (.request task.label)
  protocol : KeepsProtocol task
  sources : ∃ g, task.prog.Obeys (sourceMonitor task.label) (Sourced task.label) g ∧
    (task.label.writes = false → Grounded db as n₀ task.label g)

/-- What is answered to a read is explained. -/
def AnswerFounded (db : Db) (as : List Action) (n₀ : Nat) (x : Request × Except PyError Reply) :
    Prop :=
  ∀ reply, x.2 = .ok reply → x.1.writes = false → Explained db as n₀ x.1 reply

/-- Everything that may be answered from, and every answer, is explained by the run. -/
structure Founded (db : Db) (as : List Action) (b : Roster) (s : State) : Prop where
  stored : Stored s.shared
  counts : Counts s.shared
  tasks : List.Forall₂ (Tracked db as) b.flying s.tasks
  entries : ∀ e ∈ s.shared.redis.entries, ∀ key, e.tag.cache_key = some key → Filled db as as.length e
  answers : List.Forall₂ (AnswerFounded db as) b.answered s.shared.answered

section Runs

variable {db : Db} {as : List Action} {s s' : State}

theorem Tracked.concat {n₀ : Nat} {task : Task} (h : Tracked db as n₀ task) (a : Action) :
    Tracked db (as ++ [a]) n₀ task := by
  obtain ⟨harrived, hprotocol, g, hobeys, hgrounded⟩ := h
  exact ⟨arrived_concat harrived a, hprotocol, g, hobeys, fun hreads => (hgrounded hreads).concat a⟩

/-- A call leaves the source of its request explained. -/
theorem grounded_next (hrun : Runs.exec step (State.init db) as = some s)
    (hs : Founded db as (roster as) s) {n₀ : Nat} {r : Request} (hflight : InFlight as as.length n₀ r)
    (hreads : r.writes = false) {g : Source} (hg : Grounded db as n₀ r g) {c : Call}
    (hallows : g.allows r c) {aux : Option Scan} {outcome : Outcome} {w' : World}
    {x : Except PyError c.Answer} (hexec : exec r c aux outcome s.shared = some (w', .inr x)) :
    Grounded db as n₀ r (g.next c x) := by
  cases c with
  | query q =>
    cases x with
    | error e => exact hg
    | ok docs =>
      exact .rows as.length docs ⟨s, q, at_length hrun, hflight, hallows hreads, exec_query hexec⟩
  | get key =>
    rcases x with e | _ | value
    · exact hg
    · exact hg
    · obtain ⟨e, hlookup, rfl⟩ := exec_get hexec
      have hkey : r.cache_key = some key := hallows hreads
      obtain ⟨he, hlive, htag⟩ := found_of_lookup hs.stored hs.counts hkey hlookup
      exact .hit as.length e ⟨s, key, at_length hrun, hflight, he, hlive, hkey, htag⟩
        (hs.entries e he key htag)
  | _ => exact hg

theorem founded_call (hrun : Runs.exec step (State.init db) as = some s)
    (hs : Founded db as (roster as) s) {i : Nat} {outcome : Outcome}
    (h : step s (.call i outcome) = some s') :
    Founded db (as ++ [.call i outcome]) ((roster as).next .stay) s' := by
  obtain ⟨task, task', c, k, y, hi, hset, hprog, hexec, hy⟩ := call_set h
  obtain ⟨n₀, hn₀, htracked⟩ := Lists.exists_of_forall₂ hs.tasks hi
  obtain ⟨harrived, ⟨g₀, hobeys₀⟩, g, hobeys, hgrounded⟩ := htracked
  have hflight : InFlight as as.length n₀ task.label := by
    refine ⟨harrived, ?_⟩
    rw [List.take_length]
    exact List.mem_of_getElem? hn₀
  rw [hprog] at hobeys₀ hobeys
  have horigin := (exec_redisStep hexec).origin
  have htasks := hs.tasks.imp fun n₀ task h => Tracked.concat h (.call i outcome)
  refine ⟨exec_stored hs.stored hobeys₀.1 hexec, exec_counts hs.counts hobeys₀.1 horigin, ?_, ?_, ?_⟩
  · refine hset ▸ Lists.forall₂_set htasks fun n₁ hn₁ => ?_
    obtain rfl : n₀ = n₁ := Option.some.inj (hn₀.symm.trans hn₁)
    rcases hy with ⟨sc, -, rfl⟩ | ⟨x, rfl, rfl⟩
    · -- the loop goes on, and the request with it
      obtain ⟨n₁, hn₁', hmoved⟩ := Lists.exists_of_forall₂ htasks hi
      obtain rfl : n₀ = n₁ := Option.some.inj (hn₀.symm.trans hn₁')
      exact ⟨hmoved.arrived, hmoved.protocol, hmoved.sources⟩
    · exact ⟨arrived_concat harrived _, ⟨_, hobeys₀.2 x⟩, g.next c x, hobeys.2 x, fun hreads =>
        (grounded_next hrun hs hflight hreads (hgrounded hreads) hobeys.1 hexec).concat _⟩
  · intro e he key hkey
    have hlength : as.length ≤ (as ++ [Action.call i outcome]).length := by
      rw [List.length_append]
      omega
    rcases origin_of_cached hs.stored hobeys₀.1 (horigin e he) hkey with hold | ⟨value, rfl, rfl⟩
    · exact ((hs.entries e hold key hkey).concat _).mono hlength
    · -- the request stores what it has read
      obtain ⟨-, docs, body, rfl, hbody, hvalue⟩ := hobeys.1
      have hrows := hgrounded (writes_of_cache_key hkey)
      cases hrows with
      | rows n _ hread =>
        have hn : n ≤ as.length := by
          obtain ⟨_, _, hat, -⟩ := hread
          exact hat.1
        exact ⟨n₀, n, as.length, s, docs, body, hn, hlength, hread.concat _,
          (at_length hrun).concat _, hflight.concat (Nat.le_refl _) _, rfl, hbody, hvalue⟩
  · rw [exec_answered hexec]
    exact hs.answers.imp fun n₀ x h reply hreply hreads => (h reply hreply hreads).concat _

theorem founded_step {a : Action} (hrun : Runs.exec step (State.init db) as = some s)
    (hs : Founded db as (roster as) s) (h : step s a = some s') :
    Founded db (as ++ [a]) ((roster as).next a.move) s' := by
  have hlength : as.length ≤ (as ++ [a]).length := by
    rw [List.length_append]
    omega
  have htasks := hs.tasks.imp fun n₀ task h => Tracked.concat h a
  have hentries : ∀ e ∈ s.shared.redis.entries, ∀ key, e.tag.cache_key = some key →
      Filled db (as ++ [a]) (as ++ [a]).length e :=
    fun e he key hkey => ((hs.entries e he key hkey).concat a).mono hlength
  have hanswers : List.Forall₂ (AnswerFounded db (as ++ [a])) (roster as).answered
      s.shared.answered :=
    hs.answers.imp fun n₀ x h reply hreply hreads => (h reply hreply hreads).concat a
  cases a with
  | call i outcome => exact founded_call hrun hs h
  | request r =>
    cases h
    refine ⟨hs.stored, hs.counts, Lists.forall₂_concat htasks ?_, hentries, hanswers⟩
    refine ⟨?_, ⟨.start, handle_obeys r⟩, .unread, handle_sources r, fun _ => .unread⟩
    rw [Roster.actions_of]
    exact List.getElem?_concat_length
  | finish i =>
    obtain ⟨task, x, hi, hended, rfl⟩ := finish_erase h
    obtain ⟨n₀, hn₀, -, -, g, hobeys, hgrounded⟩ := Lists.exists_of_forall₂ htasks hi
    refine ⟨⟨hs.stored.stamp, hs.stored.cached, hs.stored.failures⟩, hs.counts,
      Lists.forall₂_eraseIdx htasks, hentries, ?_⟩
    show List.Forall₂ _ (_ ++ (roster as).flying[i]?.toList) _
    rw [hn₀]
    refine Lists.forall₂_concat hanswers fun reply hreply hreads => ?_
    -- the answer that is given now
    obtain rfl : x = .ok reply := hreply
    have hprog := Pool.eq_ret_of_outcome hended
    rw [hprog] at hobeys
    have hg := hgrounded hreads
    rcases hobeys hreads reply rfl with ⟨docs, rfl, hbody, hheaders⟩ | ⟨value, rfl, hbody, hheaders⟩
    · cases hg with
      | rows n _ hread => exact .read n docs hread hbody hheaders
    · cases hg with
      | hit n e hfound hfilled => exact .cached n e hfound hfilled hbody hheaders
  | tick ms =>
    cases h
    exact ⟨hs.stored.tick ms, hs.counts, htasks, hentries, hanswers⟩

/-- **Runs.** -/
theorem founded_exec (hrun : Runs.exec step (State.init db) as = some s) :
    Founded db as (roster as) s := by
  refine Runs.exec_history (I := fun s as => Founded db as (roster as) s)
    (fun m a m' as hm hI hstep => ?_) ?_ hrun
  · show Founded db (as ++ [a]) (Roster.of Action.move (as ++ [a])) m'
    rw [Roster.of_concat]
    exact founded_step hm hI hstep
  · exact ⟨⟨nofun, nofun, nofun⟩, nofun, .nil, nofun, .nil⟩

/-- **Answers.** Every answer to a read is what its query returned while it was in flight, or what a
read with the same key stored in the cache less than a minute before, and had read while it was in
flight. -/
theorem answers_explained (hrun : Runs.exec step (State.init db) as = some s) {k : Nat} {r : Request}
    {reply : Reply} (hr : s.shared.answered[k]? = some (r, .ok reply)) (hreads : r.writes = false) :
    ∃ n₀, AnswersTo as k n₀ ∧ Explained db as n₀ r reply := by
  obtain ⟨n₀, hn₀, hanswer⟩ := Lists.exists_of_forall₂ (founded_exec hrun).answers hr
  exact ⟨n₀, Roster.answersTo hn₀, hanswer reply rfl hreads⟩

end Runs

end Reads

open scoped Hex

/-- The users are listed twice; there are none. -/
def listTwice : List Action :=
  [.request listUsers, .call 0 (.ok first), .call 0 (.ok first), .call 0 (.ok first), .finish 0,
    .tick 59999, .request listUsers, .call 0 (.ok first), .finish 0]

/-- The second answer is that of the second request, from the cache. -/
theorem answers_explained_twice : ∃ s, Runs.exec step (State.init Db.empty) listTwice = some s ∧
    AnswersTo listTwice 1 6 ∧
    Explained Db.empty listTwice 6 listUsers ⟨[("X-Cache", "HIT")], .arr []⟩ := by
  have hresult : (Runs.exec step (State.init Db.empty) listTwice).map (fun s =>
      s.shared.answered[1]?.any fun x =>
        x.1 = listUsers ∧ x.2.toOption = some ⟨[("X-Cache", "HIT")], .arr []⟩) = some true := by
    decide +kernel
  obtain ⟨s, hrun, hany⟩ := Option.map_eq_some_iff.mp hresult
  obtain ⟨⟨r, x⟩, hx, hsame⟩ := (Option.any_eq_true _ _).mp hany
  obtain ⟨rfl, hreply⟩ := of_decide_eq_true hsame
  cases x with
  | error e => cases hreply
  | ok reply =>
    cases hreply
    obtain ⟨n₀, hanswer, hexplained⟩ := answers_explained hrun hx rfl
    obtain rfl : n₀ = 6 := Option.some.inj (hanswer.answer.symm.trans (by decide))
    exact ⟨s, hrun, hanswer, hexplained⟩

end SocialNetwork.MongoApi

import SocialNetwork.MongoApi.NetworkTheorems
import SocialNetwork.MongoApi.SourceTheorems

/-!
# Inboxes

`GET /messages` is not cached: its answer is the inbox that the user had in the network at a moment
when the request was in flight (`inbox_exact`).
-/

namespace SocialNetwork.MongoApi

open DocStore

/-- The message that a document holds, with its id. -/
def messageOf (d : Doc) : Option (ObjectId × Message) :=
  (d.read "_id" Value.oid?).bind fun id => (Message.of? d).map fun m => (id, m)

/-- The documents are all the messages from and to the user, each once, the newest first. -/
structure IsInbox (net : Network) (user : ObjectId) (docs : List Doc) : Prop where
  all_messages : ∀ d ∈ docs, (messageOf d).isSome = true
  mem_iff : ∀ id m, (∃ d ∈ docs, messageOf d = some (id, m)) ↔
    net.messages id = some m ∧ (m.from_user_id = user ∨ m.to_user_id = user)
  once : (docs.map messageOf).Nodup
  newest_first : docs.Pairwise fun d d' => ∀ x x', messageOf d = some x → messageOf d' = some x' →
    x'.2.created_at ≤ x.2.created_at

section Inbox

variable {db : Db} {d : Doc} {id : ObjectId} {m : Message} {user : ObjectId}

theorem messageOf_eq_some :
    messageOf d = some (id, m) ↔ d.get "_id" = some (.oid id) ∧ Message.of? d = some m := by
  have hid : d.read "_id" Value.oid? = some id ↔ d.get "_id" = some (.oid id) := by
    rw [Doc.read, Option.bind_eq_some_iff]
    constructor
    · rintro ⟨v, hv, hoid⟩
      rw [hv, Value.eq_oid_of_oid? v id hoid]
    · exact fun h => ⟨_, h, rfl⟩
  rw [messageOf, Option.bind_eq_some_iff]
  constructor
  · rintro ⟨id', hid', h⟩
    obtain ⟨m', hm', heq⟩ := Option.map_eq_some_iff.mp h
    cases heq
    exact ⟨hid.mp hid', hm'⟩
  · rintro ⟨hget, hm⟩
    exact ⟨id, hid.mpr hget, by rw [hm]; rfl⟩

/-- Every document of the collection is a message. -/
theorem exists_messageOf (hd : d ∈ db.docs .messages) : ∃ id m, messageOf d = some (id, m) := by
  obtain ⟨m, hm⟩ := exists_message hd
  obtain ⟨id, hid⟩ := db.messages.id d hd
  exact ⟨id, m, messageOf_eq_some.mpr ⟨hid, hm⟩⟩

theorem messages_iff :
    db.network.messages id = some m ↔ ∃ d ∈ db.docs .messages, messageOf d = some (id, m) := by
  have hnetwork : db.network.messages id = (db.lookup .messages id).bind Message.of? := rfl
  rw [hnetwork, Option.bind_eq_some_iff]
  refine exists_congr fun d => ?_
  rw [Db.lookup_eq_some, messageOf_eq_some, and_assoc]

/-- What the query selects. -/
theorem holds_messages (h : messageOf d = some (id, m)) :
    Filter.holds (.any [.eq "from_user_id" (.oid user), .eq "to_user_id" (.oid user)]) d = true ↔
      m.from_user_id = user ∨ m.to_user_id = user := by
  obtain ⟨-, hm⟩ := messageOf_eq_some.mp h
  obtain ⟨hfrom, hto, -⟩ := Message.of?_eq_some.mp hm
  have hfield : ∀ f other, d.read f Value.oid? = some other →
      (Cond.holds (.eq f (.oid user)) d = true ↔ other = user) := by
    intro f other hread
    rw [Doc.read, Option.bind_eq_some_iff] at hread
    obtain ⟨v, hv, hoid⟩ := hread
    rw [Value.eq_oid_of_oid? v other hoid] at hv
    simp [Cond.holds, DocStore.fieldEq, hv]
  simp only [Filter.holds, List.any_cons, List.any_nil, Bool.or_false, Bool.or_eq_true,
    hfield _ _ hfrom, hfield _ _ hto]

/-- The newest first. -/
theorem before_newest {d' : Doc} {x x' : ObjectId × Message}
    (h : before [("created_at", true)] d d' = true) (hx : messageOf d = some x)
    (hx' : messageOf d' = some x') : x'.2.created_at ≤ x.2.created_at := by
  have hdate : ∀ (d : Doc) (x : ObjectId × Message), messageOf d = some x →
      num? (d.get "created_at") = some x.2.created_at := by
    intro d x hx
    obtain ⟨-, -, -, -, hread⟩ := Message.of?_eq_some.mp (messageOf_eq_some.mp hx).2
    rw [Doc.read, Option.bind_eq_some_iff] at hread
    obtain ⟨v, hv, hdate⟩ := hread
    cases v with
    | date ms =>
      cases hdate
      rw [hv]
      rfl
    | _ => cases hdate
  simp only [before, hdate d x hx, hdate d' x' hx', if_true] at h
  split_ifs at h with hsame
  · omega
  · have hlt := of_decide_eq_true h
    omega

/-- **Inboxes.** -/
theorem isInbox_of_returns {docs : List Doc}
    (h : Query.Returns db (.find .messages
      (.any [.eq "from_user_id" (.oid user), .eq "to_user_id" (.oid user)]) [("created_at", true)])
      docs) : IsInbox db.network user docs := by
  obtain ⟨-, -, hreturns⟩ := h
  rw [if_neg (List.cons_ne_nil _ _)] at hreturns
  obtain ⟨hperm, hsorted⟩ := hreturns
  have hmem : ∀ d, d ∈ docs ↔ d ∈ db.docs .messages ∧
      Filter.holds (.any [.eq "from_user_id" (.oid user), .eq "to_user_id" (.oid user)]) d = true :=
    fun d => hperm.mem_iff.trans List.mem_filter
  refine ⟨fun d hd => ?_, fun id m => ?_, ?_, ?_⟩
  · obtain ⟨id, m, hx⟩ := exists_messageOf ((hmem d).mp hd).1
    rw [hx]
    rfl
  · rw [messages_iff]
    constructor
    · rintro ⟨d, hd, hx⟩
      obtain ⟨hdocs, hholds⟩ := (hmem d).mp hd
      exact ⟨⟨d, hdocs, hx⟩, (holds_messages hx).mp hholds⟩
    · rintro ⟨⟨d, hd, hx⟩, huser⟩
      exact ⟨d, (hmem d).mpr ⟨hd, (holds_messages hx).mpr huser⟩, hx⟩
  · -- a message is known by its id
    have hnodup : (docs.map (·.get "_id")).Nodup := by
      refine (hperm.map _).nodup_iff.mpr ?_
      exact List.Nodup.sublist (List.Sublist.map _ List.filter_sublist) db.messages.nodup
    rw [List.Nodup, List.pairwise_map] at hnodup ⊢
    refine hnodup.imp_of_mem fun {d d'} hd hd' hne hsame => hne ?_
    obtain ⟨id, m, hx⟩ := exists_messageOf ((hmem d).mp hd).1
    have hx' : messageOf d' = some (id, m) := hsame ▸ hx
    rw [(messageOf_eq_some.mp hx).1, (messageOf_eq_some.mp hx').1]
  · exact hsorted.imp fun hbefore x x' hx hx' => before_newest hbefore hx hx'

end Inbox

section Runs

variable {db : Db} {as : List Action} {s : State} {k : Nat} {user_id : String} {reply : Reply}

/-- **Inbox.** An answer to `GET /messages` is the inbox of the user at a moment when the request was
in flight. -/
theorem inbox_exact [Bson] (hrun : Runs.exec step (State.init db) as = some s)
    (hr : s.shared.answered[k]? = some (.get_messages user_id, .ok reply)) :
    ∃ n₀ n m user docs jsons, AnswersTo as k n₀ ∧ Runs.At step (State.init db) as n m ∧
      InFlight as n n₀ (.get_messages user_id) ∧ oid user_id = .ok user ∧
      IsInbox m.shared.db.network user docs ∧ docs.mapM to_json = .ok jsons ∧
      reply = ⟨[], listOf jsons⟩ := by
  obtain ⟨n₀, hanswer, hexplained⟩ := answers_explained hrun hr rfl
  cases hexplained with
  | read n docs hread hbody hheaders =>
    obtain ⟨m, q, hm, hflight, hq, hreturns⟩ := hread
    obtain ⟨user, huser, rfl⟩ := Option.map_eq_some_iff.mp hq
    have hjsons : (docs.mapM to_json).map listOf = .ok reply.body := hbody
    cases hdocs : docs.mapM to_json with
    | error e =>
      rw [hdocs] at hjsons
      cases hjsons
    | ok jsons =>
      rw [hdocs] at hjsons
      refine ⟨n₀, n, m, user, docs, jsons, hanswer, hm, hflight, ?_, isInbox_of_returns hreturns, hdocs,
        ?_⟩
      · cases hoid : oid user_id with
        | error e =>
          rw [hoid] at huser
          cases huser
        | ok id =>
          rw [hoid] at huser
          cases huser
          rfl
      · obtain ⟨headers, body⟩ := reply
        cases hheaders
        cases hjsons
        rfl
  | cached n e hfound hfilled hbody hheaders =>
    -- nothing is cached for it
    obtain ⟨_, key, -, -, -, -, hkey, -⟩ := hfound
    cases hkey

open scoped Hex

/-- Bob looks at his messages, writes to himself, and looks again before he is answered. -/
def lookWriteLook : List Action :=
  createWhileListing ++
    [.request (.get_messages "000000000000000000000000"), .call 0 (.ok first), .finish 0,
      .request (.create_message ⟨"000000000000000000000000", "000000000000000000000000", "hi"⟩ none),
      .call 0 (.ok first), .call 0 (.ok first), .call 0 (.ok first), .call 0 (.ok first),
      .call 0 (.ok first), .call 0 (.ok first), .call 0 (.ok { first with id := .ofNat 1 }),
      .request (.get_messages "000000000000000000000000"),
      .call 1 (.ok { first with rows := [("_id", .oid (.ofNat 1)) :: messageDoc (.ofNat 0) (.ofNat 0)
        ⟨"000000000000000000000000", "000000000000000000000000", "hi"⟩ 0] }),
      .finish 1]

/-- The second time he sees the message. -/
theorem inbox_exact_bob : ∃ s n m docs,
    Runs.exec step (State.init Db.empty) lookWriteLook = some s ∧ AnswersTo lookWriteLook 3 23 ∧
    Runs.At step (State.init Db.empty) lookWriteLook n m ∧
    InFlight lookWriteLook n 23 (.get_messages "000000000000000000000000") ∧
    IsInbox m.shared.db.network (.ofNat 0) docs ∧ docs ≠ [] := by
  have hresult : (Runs.exec step (State.init Db.empty) lookWriteLook).map (fun s =>
      s.shared.answered[3]?.any fun x => x.1 = .get_messages "000000000000000000000000" ∧
        (x.2.toOption.map fun reply => decide (reply.body ≠ .arr [])) = some true) = some true := by
    decide +kernel
  obtain ⟨s, hrun, hany⟩ := Option.map_eq_some_iff.mp hresult
  obtain ⟨⟨r, x⟩, hx, hsame⟩ := (Option.any_eq_true _ _).mp hany
  obtain ⟨rfl, hreply⟩ := of_decide_eq_true hsame
  cases x with
  | error e => cases hreply
  | ok reply =>
    have hbody : reply.body ≠ .arr [] := of_decide_eq_true (Option.some.inj hreply)
    obtain ⟨n₀, n, m, user, docs, jsons, hanswer, hm, hflight, huser, hinbox, hjsons, heq⟩ :=
      inbox_exact hrun hx
    obtain rfl : n₀ = 23 := Option.some.inj (hanswer.answer.symm.trans (by decide))
    have hbob : oid "000000000000000000000000" = .ok (.ofNat 0) := by decide +kernel
    obtain rfl : .ofNat 0 = user := Except.ok.inj (hbob.symm.trans huser)
    refine ⟨s, n, m, docs, hrun, hanswer, hm, hflight, hinbox, ?_⟩
    rintro rfl
    have hnil : [] = jsons := Except.ok.inj hjsons
    rw [heq, ← hnil] at hbody
    exact hbody rfl

end Runs

end SocialNetwork.MongoApi

import SocialNetwork.Lib.Runs
import SocialNetwork.Lib.Pool
import SocialNetwork.ChatService.Messages

/-!
# Requests on the chat database

The system of `chat-service`: any number of requests in flight on one database, each statement
one atomic step that may fail, before or after it took effect. `monitor` is the protocol of one
request, and `handle_obeys` says that the handler keeps to it. `Effect` is what the statements
of a request do within that protocol.
-/

namespace SocialNetwork.ChatService


/-! ## What the statements do -/

/-- What the database leaves open: which chat a `LIMIT 1` returns, the time, and the order of
messages of one time. -/
structure Choice where
  pick : Nat
  now : Int
  rows : List Message
deriving DecidableEq

/-- One statement; `none` where the database may not choose so. -/
def Db.execute (ω : Choice) : (c : SqlCall) → Db → Option (Db × Except CppError c.Answer)
  | .selectChat from_ to_, db =>
    if db.selectChat from_ to_ = [] then some (db, .ok none)
    else (db.selectChat from_ to_)[ω.pick]?.map fun id => (db, .ok (some id))
  | .insertChat title, db =>
    match db.insertChat title with
    | (db, some id) => some (db, .ok id)
    | (db, none) => some (db, .error .sqlError)
  | .insertMembers chat_id from_ to_, db =>
    match db.insertMembers chat_id from_ to_ with
    | (db, some _) => some (db, .ok ())
    | (db, none) => some (db, .error .sqlError)
  | .insertMessage chat_id sender_id content, db =>
    match db.insertMessage chat_id sender_id content ω.now with
    | (db, some id) => some (db, .ok id)
    | (db, none) => some (db, .error .sqlError)
  | .selectMessages user_id, db =>
    if ω.rows.Perm (db.selectMessages user_id) ∧ newestFirst ω.rows then some (db, .ok ω.rows)
    else none

/-- How a statement ends: it answers, or it raises after or before it took effect. -/
inductive Outcome
  | ok (ω : Choice)
  | raises (applied : Bool) (ω : Choice)
deriving DecidableEq

/-! ## The system -/

/-- A message that a request stored. -/
structure Stored where
  post : Post
  row : Message
deriving DecidableEq

/-- The database, and two histories: the messages stored by requests and the responses given. -/
structure World where
  db : Db
  stored : List Stored
  answered : List (Request × Response)

/-- The message a statement has stored for a request. -/
def storedBy (request : Request) (db db' : Db) : List Stored :=
  match request.post? with
  | some p => (db'.messages.rows.drop db.messages.rows.length).map fun row => ⟨p, row⟩
  | none => []

def World.apply (request : Request) (w : World) (db' : Db) : World :=
  { w with db := db', stored := w.stored ++ storedBy request w.db db' }

def server : Pool.Server Request SqlCall SqlCall.Answer CppError Unit World Outcome :=
  Pool.Server.atomic fun request c outcome w =>
    match outcome with
    | .ok ω => (w.db.execute ω c).map fun x => (w.apply request x.1, x.2)
    | .raises true ω => (w.db.execute ω c).map fun x => (w.apply request x.1, .error .sqlError)
    | .raises false _ => some (w, .error .sqlError)

abbrev Task := Pool.Task Request SqlCall SqlCall.Answer CppError Response Unit

abbrev State := Pool.Config World Request SqlCall SqlCall.Answer CppError Response Unit

inductive Action
  /-- A request arrives. -/
  | request (r : Request)
  /-- The `i`-th request in flight executes its next statement. -/
  | call (i : Nat) (outcome : Outcome)
  /-- The `i`-th request is answered, or ends with an exception. -/
  | finish (i : Nat)
  /-- The `i`-th request is dropped. -/
  | abort (i : Nat)
deriving DecidableEq

def State.init (db : Db) : State := ⟨⟨db, [], []⟩, []⟩

def step (s : State) : Action → Option State
  | .request r => some (Pool.spawn server r (HandleRequestThrow r) s)
  | .call i outcome => Pool.advance server i outcome s
  | .finish i =>
    match Pool.retire i s with
    | none => none
    | some (r, .ok response, s') =>
      some { s' with shared := { s'.shared with answered := s'.shared.answered ++ [(r, response)] } }
    | some (_, .error _, s') => some s'
  | .abort i => if i < s.tasks.length then some { s with tasks := s.tasks.eraseIdx i } else none

/-! ## The protocol of one request -/

/-- How far a request has come. -/
inductive Phase
  | start
  /-- There is no chat of the two users. -/
  | missing
  /-- The chat has been created, without members. -/
  | created (chat_id : Int)
  /-- The chat is there, and both users are its members. -/
  | ready (chat_id : Int)
  | stored (chat_id message_id : Int)
  | failed
deriving DecidableEq

/-- The statements allowed in a phase. -/
def Phase.allows (request : Request) (g : Phase) : SqlCall → Prop
  | .selectChat from_ to_ => g = start ∧ ∃ p, request.post? = some p ∧ from_ = p.from_ ∧ to_ = p.to_
  | .insertChat title => g = missing ∧ title = "private-chat" ∧ request.post?.isSome
  | .insertMembers chat_id from_ to_ =>
    g = created chat_id ∧ ∃ p, request.post? = some p ∧ from_ = p.from_ ∧ to_ = p.to_
  | .insertMessage chat_id sender_id content =>
    g = ready chat_id ∧ ∃ p, request.post? = some p ∧ sender_id = p.from_ ∧ content = p.text
  | .selectMessages user_id => g = start ∧ request.get? = some user_id

/-- The phase after a statement and its answer. -/
def Phase.after : (c : SqlCall) → Except CppError c.Answer → Phase
  | .selectChat _ _, .ok none => missing
  | .selectChat _ _, .ok (some chat_id) => ready chat_id
  | .insertChat _, .ok (chat_id : Int) => created chat_id
  | .insertMembers chat_id _ _, .ok _ => ready chat_id
  | .insertMessage chat_id _ _, .ok (message_id : Int) => stored chat_id message_id
  | .selectMessages _, .ok _ => start
  | _, .error _ => failed

def monitor (request : Request) : Prog.Monitor SqlCall SqlCall.Answer CppError Phase where
  ok := Phase.allows request
  next _ := Phase.after

/-- A request that is answered with 201 has stored its message. -/
def Ended (request : Request) (r : Except CppError Response) (g : Phase) : Prop :=
  ∀ response, r = .ok response → response.status = .kCreated →
    ∃ p chat_id message_id, request.post? = some p ∧ g = .stored chat_id message_id ∧
      response = ChatService.created message_id chat_id p.from_ p.text

theorem ended_error {request : Request} {e : CppError} {g : Phase} :
    Ended request (.error e) g := fun _ h => by cases h

/-- Reading an id either continues with it or raises. -/
theorem obeys_asRowInt {α : Type} {request : Request} {g : Phase}
    {Q : Except CppError α → Phase → Prop} (hQ : ∀ e, Q (.error e) g) {f : Int → Cpp α} {n : Int}
    (h : Prog.Obeys (monitor request) Q g (f n)) :
    Prog.Obeys (monitor request) Q g (asRowInt n >>= f) := by
  rw [asRowInt_bind]
  split_ifs
  · exact h
  · exact hQ _

/-- Posting a message keeps to the protocol. -/
theorem postMessage_obeys {request : Request} {p : Post} (hp : request.post? = some p) :
    Prog.Obeys (monitor request) (Ended request) .start (postMessage p) := by
  -- once the chat is ready, the message is stored and answered with 201
  have hready : ∀ chat_id, Prog.Obeys (monitor request) (Ended request) (.ready chat_id) (do
      let msg_res : Int ← Prog.perform (SqlCall.insertMessage chat_id p.from_ p.text)
      let message_id ← asRowInt msg_res
      pure (ChatService.created message_id chat_id p.from_ p.text)) := by
    intro chat_id
    refine Prog.obeys_bind.mpr (Prog.obeys_perform.mpr ⟨⟨rfl, p, hp, rfl, rfl⟩, fun r => ?_⟩)
    cases r with
    | error e => exact ended_error
    | ok message_id =>
      refine obeys_asRowInt (fun _ => ended_error) ?_
      intro response hr _
      exact ⟨p, chat_id, message_id, hp, rfl, (Except.ok.inj hr).symm⟩
  unfold postMessage
  refine Prog.obeys_bind.mpr (Prog.obeys_perform.mpr ⟨⟨rfl, p, hp, rfl, rfl⟩, fun r => ?_⟩)
  rcases r with e | _ | chat_id
  · exact ended_error
  · refine Prog.obeys_bind.mpr (Prog.obeys_perform.mpr
      ⟨⟨rfl, rfl, by rw [hp]; rfl⟩, fun r => ?_⟩)
    cases r with
    | error e => exact ended_error
    | ok chat_id =>
      refine obeys_asRowInt (fun _ => ended_error) (Prog.obeys_bind.mpr (Prog.obeys_perform.mpr
        ⟨⟨rfl, p, hp, rfl, rfl⟩, fun r => ?_⟩))
      cases r with
      | error e => exact ended_error
      | ok _ => exact hready chat_id
  · exact obeys_asRowInt (fun _ => ended_error) (hready chat_id)

/-- Encoding the result of a `GET` takes no statement. -/
theorem obeys_items {request : Request} {g : Phase} (rows : List Message) :
    Prog.Obeys (monitor request) (Ended request) g
      (items rows >>= fun arr => pure ⟨.kOk, arrayBody arr⟩) := by
  rw [items_eq]
  split_ifs
  · intro response hr hst
    rw [← Except.ok.inj hr] at hst
    cases hst
  · exact ended_error

/-- **Protocol.** The handler keeps to the protocol of its request. -/
theorem handle_obeys (request : Request) :
    Prog.Obeys (monitor request) (Ended request) .start (HandleRequestThrow request) := by
  cases hp : request.post? with
  | some p =>
    rw [handle_post hp]
    exact postMessage_obeys hp
  | none =>
    cases hg : request.get? with
    | some user_id =>
      rw [handle_get hg]
      refine Prog.obeys_bind.mpr (Prog.obeys_perform.mpr ⟨⟨rfl, hg⟩, fun r => ?_⟩)
      cases r with
      | error e => exact ended_error
      | ok rows => exact obeys_items rows
    | none =>
      rcases handle_other hp hg with ⟨e, he⟩ | ⟨r, hr, hst⟩
      · rw [he]
        exact ended_error
      · rw [hr]
        intro response he hcreated
        exact absurd (Except.ok.inj he ▸ hcreated) hst

/-! ## What a statement does, phase by phase -/

/-- The statements of one request that its protocol allows, and what they do. -/
inductive Effect (r : Request) (w : World) : SqlCall → Outcome → Phase → World → Phase → Prop
  | notFound {p ω} (hp : r.post? = some p) (h : w.db.selectChat p.from_ p.to_ = []) :
    Effect r w (.selectChat p.from_ p.to_) (.ok ω) .start w .missing
  | found {p ω chat_id} (hp : r.post? = some p)
    (h : (w.db.selectChat p.from_ p.to_)[ω.pick]? = some chat_id) :
    Effect r w (.selectChat p.from_ p.to_) (.ok ω) .start w (.ready chat_id)
  | create {p title o chat_id w' g'} (hp : r.post? = some p)
    (hnew : chat_id ∉ w.db.chats.rows.map Chat.id)
    (hchats : w'.db.chats.rows = w.db.chats.rows ++ [⟨chat_id, title, false⟩])
    (hmembers : w'.db.chat_members.rows = w.db.chat_members.rows)
    (hmessages : w'.db.messages.rows = w.db.messages.rows)
    (hstored : w'.stored = w.stored) (hanswered : w'.answered = w.answered)
    (hg : g' = .created chat_id ∨ g' = .failed) :
    Effect r w (.insertChat title) o .missing w' g'
  | join {p o chat_id w' g'} (hp : r.post? = some p) (hne : p.from_ ≠ p.to_)
    (hchats : w'.db.chats.rows = w.db.chats.rows)
    (hmembers : w'.db.chat_members.rows =
      w.db.chat_members.rows ++ [⟨chat_id, p.from_⟩, ⟨chat_id, p.to_⟩])
    (hmessages : w'.db.messages.rows = w.db.messages.rows)
    (hstored : w'.stored = w.stored) (hanswered : w'.answered = w.answered)
    (hg : g' = .ready chat_id ∨ g' = .failed) :
    Effect r w (.insertMembers chat_id p.from_ p.to_) o (.created chat_id) w' g'
  | store {p o chat_id id now w' g'} (hp : r.post? = some p)
    (hchats : w'.db.chats.rows = w.db.chats.rows)
    (hmembers : w'.db.chat_members.rows = w.db.chat_members.rows)
    (hmessages : w'.db.messages.rows =
      w.db.messages.rows ++ [⟨id, chat_id, p.from_, p.text, now⟩])
    (hstored : w'.stored = w.stored ++ [⟨p, ⟨id, chat_id, p.from_, p.text, now⟩⟩])
    (hanswered : w'.answered = w.answered)
    (hg : g' = .stored chat_id id ∨ g' = .failed) :
    Effect r w (.insertMessage chat_id p.from_ p.text) o (.ready chat_id) w' g'
  | read {user_id ω} : Effect r w (.selectMessages user_id) (.ok ω) .start w .start
  | fail {c o g w'} (hrows : w.db.SameRows w'.db) (hstored : w'.stored = w.stored)
    (hanswered : w'.answered = w.answered) : Effect r w c o g w' .failed

theorem sameRows_refl (db : Db) : db.SameRows db := ⟨rfl, rfl, rfl⟩

/-- Nothing is stored by a statement that adds no message. -/
theorem storedBy_eq_nil {request : Request} {db db' : Db}
    (h : db'.messages.rows = db.messages.rows) : storedBy request db db' = [] := by
  unfold storedBy
  split
  · rw [h, List.drop_length, List.map_nil]
  · rfl

theorem storedBy_append {request : Request} {p : Post} {db db' : Db} {row : Message}
    (hp : request.post? = some p) (h : db'.messages.rows = db.messages.rows ++ [row]) :
    storedBy request db db' = [⟨p, row⟩] := by
  unfold storedBy
  rw [hp]
  simp only [h, List.drop_left, List.map_cons, List.map_nil]

theorem apply_sameRows {request : Request} {w : World} {db' : Db} (h : w.db.SameRows db')
    {c : SqlCall} {o : Outcome} {g : Phase} :
    Effect request w c o g (w.apply request db') .failed := by
  refine .fail h ?_ rfl
  rw [World.apply, storedBy_eq_nil h.messages, List.append_nil]

/-- What a statement answers: as the database executes it, or with an exception. -/
theorem exec_eq_some {r : Request} {c : SqlCall} {o : Outcome} {w w' : World}
    {x : Except CppError c.Answer} (h : server.exec r c () o w = some (w', .inr x)) :
    (w' = w ∧ x = .error .sqlError) ∨
      ∃ ω db' y, w.db.execute ω c = some (db', y) ∧ w' = w.apply r db' ∧
        ((o = .ok ω ∧ x = y) ∨ x = .error .sqlError) := by
  simp only [server, Pool.Server.atomic] at h
  rcases o with ω | ⟨_ | _, ω⟩
  · obtain ⟨z, hz, he⟩ := Option.map_eq_some_iff.mp h
    obtain ⟨⟨db', y⟩, hy, hz'⟩ := Option.map_eq_some_iff.mp hz
    cases he
    cases hz'
    exact .inr ⟨ω, db', y, hy, rfl, .inl ⟨rfl, rfl⟩⟩
  · cases h
    exact .inl ⟨rfl, rfl⟩
  · obtain ⟨z, hz, he⟩ := Option.map_eq_some_iff.mp h
    obtain ⟨⟨db', y⟩, hy, hz'⟩ := Option.map_eq_some_iff.mp hz
    cases he
    cases hz'
    exact .inr ⟨ω, db', y, hy, rfl, .inr rfl⟩

/-- The statements a request executes within its protocol do what `Effect` says. -/
theorem effect_of_allows {r : Request} {w w' : World} {c : SqlCall} {o : Outcome} {g : Phase}
    {x : Except CppError c.Answer} (hok : g.allows r c)
    (h : server.exec r c () o w = some (w', .inr x)) :
    Effect r w c o g w' (Phase.after c x) := by
  have hfail : ∀ {c : SqlCall}, Phase.after c (.error .sqlError) = .failed := by
    intro c
    cases c <;> rfl
  rcases exec_eq_some h with ⟨rfl, rfl⟩ | ⟨ω, db', y, hexec, rfl, hx⟩
  · rw [hfail]
    exact .fail (sameRows_refl _) rfl rfl
  -- a statement that only reads leaves the world as it is, answered or not
  have hread : ∀ {o}, db' = w.db → Effect r w c o g (w.apply r db') .failed := by
    rintro o rfl
    exact apply_sameRows (sameRows_refl _)
  have hsame : db' = w.db → w.apply r db' = w := by
    rintro rfl
    rw [World.apply, storedBy_eq_nil rfl, List.append_nil]
  cases c with
  | selectChat from_ to_ =>
    obtain ⟨rfl, p, hp, rfl, rfl⟩ := hok
    simp only [Db.execute] at hexec
    split_ifs at hexec with hnil
    · cases hexec
      rcases hx with ⟨rfl, rfl⟩ | rfl
      · rw [hsame rfl]
        exact .notFound hp hnil
      · exact hread rfl
    · obtain ⟨id, hid, he⟩ := Option.map_eq_some_iff.mp hexec
      cases he
      rcases hx with ⟨rfl, rfl⟩ | rfl
      · rw [hsame rfl]
        exact .found hp hid
      · exact hread rfl
  -- each insert either adds its row, whether the request learns of it or not, or is refused
  | insertChat title =>
    obtain ⟨rfl, -, hpost⟩ := hok
    obtain ⟨p, hp⟩ := Option.isSome_iff_exists.mp hpost
    simp only [Db.execute] at hexec
    split at hexec
    · next db₁ id hins =>
      cases hexec
      obtain ⟨hnew, hchats, hmembers, hmessages⟩ := Db.insertChat_some hins
      refine .create hp hnew hchats hmembers hmessages ?_ rfl ?_
      · rw [World.apply, storedBy_eq_nil hmessages, List.append_nil]
      · rcases hx with ⟨-, rfl⟩ | rfl
        · exact .inl rfl
        · exact .inr rfl
    · next db₁ hins =>
      cases hexec
      rcases hx with ⟨-, rfl⟩ | rfl <;> exact apply_sameRows (Db.insertChat_none hins)
  | insertMembers chat_id from_ to_ =>
    obtain ⟨rfl, p, hp, rfl, rfl⟩ := hok
    simp only [Db.execute] at hexec
    split at hexec
    · next db₁ u hins =>
      cases hexec
      obtain ⟨hne, hchats, hmembers, hmessages⟩ := Db.insertMembers_some hins
      refine .join hp hne hchats hmembers hmessages ?_ rfl ?_
      · rw [World.apply, storedBy_eq_nil hmessages, List.append_nil]
      · rcases hx with ⟨-, rfl⟩ | rfl
        · exact .inl rfl
        · exact .inr rfl
    · next db₁ hins =>
      cases hexec
      rcases hx with ⟨-, rfl⟩ | rfl <;> exact hread (Db.insertMembers_none hins)
  | insertMessage chat_id sender_id content =>
    obtain ⟨rfl, p, hp, rfl, rfl⟩ := hok
    simp only [Db.execute] at hexec
    split at hexec
    · next db₁ id hins =>
      cases hexec
      obtain ⟨hchats, hmembers, hmessages⟩ := Db.insertMessage_some hins
      refine .store hp hchats hmembers hmessages ?_ rfl ?_
      · rw [World.apply, storedBy_append hp hmessages]
      · rcases hx with ⟨-, rfl⟩ | rfl
        · exact .inl rfl
        · exact .inr rfl
    · next db₁ hins =>
      cases hexec
      rcases hx with ⟨-, rfl⟩ | rfl <;> exact apply_sameRows (Db.insertMessage_none hins)
  | selectMessages user_id =>
    obtain ⟨rfl, -⟩ := hok
    simp only [Db.execute] at hexec
    split_ifs at hexec
    cases hexec
    rcases hx with ⟨rfl, rfl⟩ | rfl
    · rw [hsame rfl]
      exact .read
    · exact hread rfl

end SocialNetwork.ChatService

import SocialNetwork.ChatService.ServiceTheorems

/-!
# Message delivery

A message answered with 201 is in a chat of both its users, whatever chats the requests before
it created or left without members; the join of a `GET` reads it once for each member.
-/

namespace SocialNetwork.ChatService

open Text (ByteString)
open Userver (Json)

/-- The value under a key of a JSON object. -/
def field? (v : Json) (key : String) : Option Json :=
  match v with
  | .obj fs => fs.lookup (.text key)
  | _ => none

/-- The ids of the database fit into `int`. -/
structure IdsFit (db : Db) : Prop where
  users : ∀ id ∈ db.users, isInt32 id
  chats : ∀ c ∈ db.chats.rows, isInt32 c.id
  messages : ∀ m ∈ db.messages.rows, isInt32 m.id

theorem IdsFit.fits {db : Db} (h : IdsFit db) {m : Message} (hm : m ∈ db.messages.rows) :
    ChatService.fits m := by
  refine ⟨h.messages m hm, ?_, h.users _ (db.message_sender m hm)⟩
  obtain ⟨c, hc, hid⟩ := List.mem_map.mp (db.message_chat m hm)
  rw [← hid]
  exact h.chats c hc

/-- The database of a request that is alone on it, with what it leaves open. -/
def alone (ω : Choice) (c : SqlCall) (db : Db) : Db × Except CppError c.Answer :=
  (db.execute ω c).getD (db, .error .sqlError)

/-- The response of a request that is alone on the database. -/
def respond (ω : Choice) (request : Request) (db : Db) : Except CppError Response :=
  ((HandleRequestThrow request).eval (alone ω) db).2

/-- What a `GET` is answered. -/
theorem respond_get_eq {request : Request} {user_id : Int} (hget : request.get? = some user_id)
    (db : Db) (ω : Choice) :
    respond ω request db =
      if ω.rows.Perm (db.selectMessages user_id) ∧ Db.newestFirst ω.rows then
        if ∀ m ∈ ω.rows, fits m then .ok ⟨.kOk, arrayBody (ω.rows.map item)⟩
        else .error .narrowingOverflow
      else .error .sqlError := by
  rw [respond, handle_get hget]
  split_ifs with hω hfits
  · have hanswer : alone ω (.selectMessages user_id) db = (db, .ok ω.rows) := by
      rw [alone, Db.execute, if_pos hω]
      rfl
    have heval := Prog.eval_perform_bind
      (f := fun rows => (items rows >>= fun arr => pure ⟨.kOk, arrayBody arr⟩ : Cpp Response))
      hanswer
    rw [items_eq, if_pos hfits] at heval
    exact congrArg Prod.snd heval
  · have hanswer : alone ω (.selectMessages user_id) db = (db, .ok ω.rows) := by
      rw [alone, Db.execute, if_pos hω]
      rfl
    have heval := Prog.eval_perform_bind
      (f := fun rows => (items rows >>= fun arr => pure ⟨.kOk, arrayBody arr⟩ : Cpp Response))
      hanswer
    rw [items_eq, if_neg hfits] at heval
    exact congrArg Prod.snd heval
  · have hanswer : alone ω (.selectMessages user_id) db = (db, .error .sqlError) := by
      rw [alone, Db.execute, if_neg hω]
      rfl
    have heval := Prog.eval_perform_bind_error
      (f := fun rows => (items rows >>= fun arr => pure ⟨.kOk, arrayBody arr⟩ : Cpp Response))
      hanswer
    exact congrArg Prod.snd heval

/-- What a `GET` is answered, if the ids fit. -/
theorem respond_get {request : Request} {user_id : Int} (hget : request.get? = some user_id)
    {db : Db} (hids : IdsFit db) {ω : Choice}
    (hω : ω.rows.Perm (db.selectMessages user_id) ∧ Db.newestFirst ω.rows) :
    respond ω request db = .ok ⟨.kOk, arrayBody (ω.rows.map item)⟩ := by
  have hfits : ∀ m ∈ ω.rows, fits m := by
    intro m hm
    exact hids.fits (Db.mem_selectMessages.mp (hω.1.mem_iff.mp hm)).1
  rw [respond_get_eq hget, if_pos hω, if_pos hfits]

theorem field_item_id (m : Message) : field? (item m) "id" = some (.int m.id) := rfl

/-- The items of a message among those of other messages. -/
theorem count_items {rows : List Message} {m : Message}
    (hid : ∀ m' ∈ rows, m'.id = m.id → m' = m) :
    (rows.map item).countP (fun v => field? v "id" = some (.int m.id)) = rows.count m := by
  rw [List.countP_map, List.count]
  refine List.countP_congr fun m' hm' => ?_
  simp only [Function.comp_apply, field_item_id, decide_eq_true_eq, Option.some.injEq,
    Json.int.injEq, beq_iff_eq]
  constructor
  · exact hid m' hm'
  · intro he
    rw [he]

/-- A request that posts a message. -/
def postRequest (from_ to_ : Int) (text : ByteString) : Request :=
  ⟨.kPost, "Bearer 123",
    some (.obj [("from", .int from_), ("to", .int to_), ("text", .str text)]), ""⟩

def getRequest (user_id : ByteString) : Request := ⟨.kGet, "Bearer 123", none, user_id⟩

/-- The first message of two users, stored without a failure. -/
def firstMessageRun : List Action :=
  [.request (postRequest 1 2 "hello"), .call 0 (.ok ⟨0, 0, []⟩), .call 0 (.ok ⟨0, 0, []⟩),
    .call 0 (.ok ⟨0, 0, []⟩), .call 0 (.ok ⟨0, 0, []⟩), .finish 0]

/-- A database whose next message gets the largest id that fits. -/
def lastFittingDb : Db := { Db.withUsers [1, 2] with messages_id_seq := 2 ^ 31 - 1 }

/-- Two messages: the first one gets the last id that fits, and is answered; the second is stored
under the next id, which its handler cannot read. -/
def lastFittingRun : List Action :=
  firstMessageRun ++ [.request (postRequest 1 2 "again"), .call 0 (.ok ⟨0, 0, []⟩),
    .call 0 (.ok ⟨0, 1, []⟩), .finish 0]

end SocialNetwork.ChatService

import Mathlib.Algebra.Order.Ring.Int
import SocialNetwork.Lib.Prog
import SocialNetwork.ChatService.Database
import SocialNetwork.Userver.Json

/-!
# The messages handler (`chat-service/src/messages.cpp`)

`HandleRequestThrow` as a program over the statements it executes. A body is the JSON value its
text encodes. Integers of a request are read as `int`, and so are the `BIGINT` ids the database
returns; a value that does not fit is an exception.
-/

namespace SocialNetwork.ChatService

open Text (ByteString)
open Userver (Json)

/-! ## Statements and exceptions -/

inductive SqlCall
  | selectChat (from_ to_ : Int)
  | insertChat (title : String)
  | insertMembers (chat_id from_ to_ : Int)
  | insertMessage (chat_id sender_id : Int) (content : ByteString)
  | selectMessages (user_id : Int)
deriving DecidableEq

/-- The rows a statement returns: at most one chat (`LIMIT 1`), the new id, or messages. -/
def SqlCall.Answer : SqlCall → Type
  | selectChat _ _ => Option Int
  | insertChat _ => Int
  | insertMembers _ _ _ => Unit
  | insertMessage _ _ _ => Int
  | selectMessages _ => List Message

inductive CppError
  | parseException
  | typeMismatch
  | memberMissing
  | outOfBounds
  | narrowingOverflow
  | invalidArgument
  | outOfRange
  | fieldValueIsNull
  | sqlError
deriving DecidableEq, Repr

/-- C++ code of the handler. -/
abbrev Cpp := Prog SqlCall SqlCall.Answer CppError

/-! ## Reading integers -/

/-- The range of `int`. -/
def isInt32 (n : Int) : Prop := -2 ^ 31 ≤ n ∧ n < 2 ^ 31

instance (n : Int) : Decidable (isInt32 n) := inferInstanceAs (Decidable (_ ∧ _))

/-- The integer a double is, where it is one. -/
def integral? (bits : BitVec 64) : Option Int :=
  let fraction := bits.toNat % 2 ^ 52
  let exponent := bits.toNat / 2 ^ 52 % 2 ^ 11
  let sign : Int := if bits.toNat / 2 ^ 63 = 1 then -1 else 1
  if exponent = 2047 then none
  else
    let significand := if exponent = 0 then fraction else 2 ^ 52 + fraction
    let scale := max exponent 1
    if 1075 ≤ scale then some (sign * (significand * 2 ^ (scale - 1075) : Nat))
    else if significand % 2 ^ (1075 - scale) = 0 then
      some (sign * (significand / 2 ^ (1075 - scale) : Nat))
    else none

/-- `As<int64_t>()`. -/
def asInt64 : Json → Except CppError Int
  | .int n => if -2 ^ 63 ≤ n ∧ n < 2 ^ 63 then .ok n else .error .typeMismatch
  | .double bits =>
    match integral? bits with
    | some n => if -2 ^ 53 < n ∧ n < 2 ^ 53 then .ok n else .error .typeMismatch
    | none => .error .typeMismatch
  | _ => .error .typeMismatch

/-- `As<int>()`. -/
def asInt (v : Json) : Except CppError Int := do
  let n ← asInt64 v
  if isInt32 n then pure n else throw .outOfBounds

/-- `As<std::string>()`. -/
def asString : Json → Except CppError ByteString
  | .str s => .ok s
  | _ => .error .typeMismatch

/-- `HasMember`; a value that is neither an object nor null is an error. -/
def HasMember (v : Json) (key : String) : Except CppError Bool :=
  match v with
  | .obj fs => .ok (fs.lookup (.text key)).isSome
  | .null => .ok false
  | _ => .error .typeMismatch

/-- `v[key]`, read by `As`. -/
def member (v : Json) (key : String) : Except CppError Json :=
  match v with
  | .obj fs =>
    match fs.lookup (.text key) with
    | some w => .ok w
    | none => .error .memberMissing
  | .null => .error .memberMissing
  | _ => .error .typeMismatch

def isSpace (c : Char) : Bool := c = ' ' || ('\t' ≤ c && c ≤ '\r')

/-- `std::stoi`: leading blanks, a sign and digits; what follows is ignored. -/
def stoi (s : ByteString) : Except CppError Int :=
  let cs := s.chars.dropWhile isSpace
  let sign : Int := if cs.head? = some '-' then -1 else 1
  let cs := if cs.head? = some '-' ∨ cs.head? = some '+' then cs.tail else cs
  let digits := cs.takeWhile Char.isDigit
  if digits = [] then .error .invalidArgument
  else
    let n := sign * (digits.foldl (fun n c => 10 * n + (c.toNat - '0'.toNat)) 0 : Nat)
    if isInt32 n then .ok n else .error .outOfRange

/-- `AsSingleRow<int>()` of one row, and `As<int>()` of a field. -/
def asRowInt (n : Int) : Cpp Int := if isInt32 n then .ret n else .raise .narrowingOverflow

/-! ## Requests and responses -/

inductive HttpMethod
  | kGet
  | kPost
  | other
deriving DecidableEq, Repr

/-- What the handler reads of a request. The body is `none` where it is no valid JSON. -/
structure Request where
  method : HttpMethod
  authorization : ByteString
  body : Option Json
  user_id : ByteString
deriving DecidableEq

inductive HttpStatus
  | kOk
  | kCreated
  | kBadRequest
  | kUnauthorized
  | kMethodNotAllowed
deriving DecidableEq, Repr

structure Response where
  status : HttpStatus
  body : Json
deriving DecidableEq

def errorBody (text : String) : Json := .obj [("error", .str text)]

/-- What a message is posted with. -/
structure Post where
  from_ : Int
  to_ : Int
  text : ByteString
deriving DecidableEq, Repr

/-- The fields of a body, `none` where one is missing. -/
def parsePost (body : Option Json) : Except CppError (Option Post) :=
  match body with
  | none => .error .parseException
  | some json => do
    if !(← HasMember json "from") then return none
    if !(← HasMember json "to") then return none
    if !(← HasMember json "text") then return none
    let from_ ← asInt (← member json "from")
    let to_ ← asInt (← member json "to")
    let text ← asString (← member json "text")
    return some ⟨from_, to_, text⟩

/-! ## The handler -/

def created (message_id chat_id from_ : Int) (text : ByteString) : Response :=
  ⟨.kCreated, .obj [("id", .int message_id), ("chat_id", .int chat_id), ("from", .int from_),
    ("text", .str text)]⟩

def postMessage (p : Post) : Cpp Response := do
  let chat_res : Option Int ← Prog.perform (SqlCall.selectChat p.from_ p.to_)
  let chat_id ←
    match chat_res with
    | none => do
      let created_chat : Int ← Prog.perform (SqlCall.insertChat "private-chat")
      let chat_id ← asRowInt created_chat
      Prog.perform (SqlCall.insertMembers chat_id p.from_ p.to_)
      pure chat_id
    | some chat_id => asRowInt chat_id
  let msg_res : Int ← Prog.perform (SqlCall.insertMessage chat_id p.from_ p.text)
  let message_id ← asRowInt msg_res
  pure (created message_id chat_id p.from_ p.text)

/-- The items of a result, row by row. -/
def items : List Message → Cpp (List Json)
  | [] => pure []
  | row :: rows => do
    let id ← asRowInt row.id
    let chat_id ← asRowInt row.chat_id
    let sender_id ← asRowInt row.sender_id
    let rest ← items rows
    pure (.obj [("id", .int id), ("chat_id", .int chat_id), ("from", .int sender_id),
      ("text", .str row.content)] :: rest)

/-- A builder that nothing was pushed to is null. -/
def arrayBody (items : List Json) : Json := if items = [] then .null else .arr items

def getMessages (user_id : Int) : Cpp Response := do
  let result : List Message ← Prog.perform (SqlCall.selectMessages user_id)
  let arr ← items result
  pure ⟨.kOk, arrayBody arr⟩

/-- What is computed without the database. -/
def liftExcept {α : Type} : Except CppError α → Cpp α
  | .ok a => .ret a
  | .error e => .raise e

def HandleRequestThrow (request : Request) : Cpp Response :=
  if request.authorization ≠ "Bearer 123" then
    pure ⟨.kUnauthorized, errorBody "Unauthorized"⟩
  else if request.method = .kPost then do
    match ← liftExcept (parsePost request.body) with
    | none => pure ⟨.kBadRequest, errorBody "from, to, text are required"⟩
    | some p => postMessage p
  else if request.method = .kGet then
    if request.user_id = "" then pure ⟨.kBadRequest, errorBody "user_id is required"⟩
    else do
      let user_id ← liftExcept (stoi request.user_id)
      getMessages user_id
  else pure ⟨.kMethodNotAllowed, errorBody "Method not allowed"⟩

/-! ## What a result is encoded as -/

/-- The item of a message. -/
def item (m : Message) : Json :=
  .obj [("id", .int m.id), ("chat_id", .int m.chat_id), ("from", .int m.sender_id),
    ("text", .str m.content)]

/-- The ids of a message fit into `int`. -/
def fits (m : Message) : Prop := isInt32 m.id ∧ isInt32 m.chat_id ∧ isInt32 m.sender_id

instance (m : Message) : Decidable (fits m) := inferInstanceAs (Decidable (_ ∧ _))

theorem asRowInt_bind {α : Type} (n : Int) (f : Int → Cpp α) :
    asRowInt n >>= f = if isInt32 n then f n else .raise .narrowingOverflow := by
  unfold asRowInt
  split_ifs <;> rfl

/-- A result is encoded row by row, if all its ids fit. -/
theorem items_eq (rows : List Message) :
    items rows =
      if ∀ m ∈ rows, fits m then .ret (rows.map item) else .raise .narrowingOverflow := by
  induction rows with
  | nil => rfl
  | cons row rows ih =>
    rw [items, asRowInt_bind, asRowInt_bind, asRowInt_bind, ih]
    by_cases hrow : fits row
    · rw [if_pos hrow.1, if_pos hrow.2.1, if_pos hrow.2.2]
      by_cases hrows : ∀ m ∈ rows, fits m
      · rw [if_pos hrows, if_pos (List.forall_mem_cons.mpr ⟨hrow, hrows⟩)]
        rfl
      · rw [if_neg hrows, if_neg fun h => hrows (List.forall_mem_cons.mp h).2]
        rfl
    · rw [if_neg (fun h => hrow (List.forall_mem_cons.mp h).1)]
      rw [fits, not_and_or, not_and_or] at hrow
      split_ifs <;> simp_all

/-! ## What a request asks for -/

/-- The message a request posts. -/
def Request.post? (request : Request) : Option Post :=
  if request.authorization = "Bearer 123" ∧ request.method = .kPost then
    match parsePost request.body with
    | .ok p => p
    | .error _ => none
  else none

/-- The user whose messages a request reads. -/
def Request.get? (request : Request) : Option Int :=
  if request.authorization = "Bearer 123" ∧ request.method = .kGet ∧ request.user_id ≠ "" then
    (stoi request.user_id).toOption
  else none

theorem handle_post {request : Request} {p : Post} (h : request.post? = some p) :
    HandleRequestThrow request = postMessage p := by
  unfold Request.post? at h
  split_ifs at h with hauth
  split at h
  · next q hq =>
    rw [h] at hq
    rw [HandleRequestThrow, if_neg (not_not.mpr hauth.1), if_pos hauth.2, hq]
    rfl
  · cases h

theorem handle_get {request : Request} {user_id : Int} (h : request.get? = some user_id) :
    HandleRequestThrow request = getMessages user_id := by
  unfold Request.get? at h
  split_ifs at h with hauth
  rw [HandleRequestThrow, if_neg (not_not.mpr hauth.1), if_neg (by rw [hauth.2.1]; decide),
    if_pos hauth.2.1, if_neg hauth.2.2]
  cases hs : stoi request.user_id with
  | error e =>
    rw [hs] at h
    cases h
  | ok n =>
    rw [hs] at h
    cases h
    rfl

/-- A request that neither posts nor reads ends without a statement, and creates nothing. -/
theorem handle_other {request : Request} (hp : request.post? = none) (hg : request.get? = none) :
    (∃ e, HandleRequestThrow request = .raise e) ∨
      ∃ r : Response, HandleRequestThrow request = .ret r ∧ r.status ≠ .kCreated := by
  unfold HandleRequestThrow
  split_ifs with hauth hpost hget hempty
  · exact .inr ⟨_, rfl, fun h => by cases h⟩
  · rw [Request.post?, if_pos ⟨not_not.mp hauth, hpost⟩] at hp
    cases hparse : parsePost request.body with
    | error e => exact .inl ⟨e, rfl⟩
    | ok q =>
      rw [hparse] at hp
      have hnone : q = none := hp
      subst hnone
      exact .inr ⟨_, rfl, fun h => by cases h⟩
  · exact .inr ⟨_, rfl, fun h => by cases h⟩
  · rw [Request.get?, if_pos ⟨not_not.mp hauth, hget, hempty⟩] at hg
    cases hs : stoi request.user_id with
    | error e => exact .inl ⟨e, rfl⟩
    | ok n =>
      rw [hs] at hg
      cases hg
  · exact .inr ⟨_, rfl, fun h => by cases h⟩

end SocialNetwork.ChatService

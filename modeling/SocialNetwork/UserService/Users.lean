import SocialNetwork.ChatService.Messages
import SocialNetwork.UserService.Database

/-!
# The users handler (`user-service/src/users.cpp`)

`HandleRequestThrow` as a program over the statements it executes. Bodies, exceptions and responses
are those of the other userver service.
-/

namespace SocialNetwork.UserService

open Text (ByteString)
open Userver (Json)
open ChatService (CppError HttpMethod HttpStatus Response HasMember member asString isInt32 errorBody
  arrayBody)

/-! ## Statements -/

inductive SqlCall
  | insertUser (username email password_hash : ByteString)
  | insertProfile (user_id : Int) (first_name last_name : ByteString)
  | selectUsers (login name : ByteString)
deriving DecidableEq

def SqlCall.Answer : SqlCall → Type
  | insertUser _ _ _ => Int
  | insertProfile _ _ _ => Unit
  | selectUsers _ _ => List Row

/-- C++ code of the handler. -/
abbrev Cpp := Prog SqlCall SqlCall.Answer CppError

/-- `As<int>()` of a `BIGINT`. -/
def asRowInt (n : Int) : Cpp Int := if isInt32 n then .ret n else .raise .narrowingOverflow

/-- `As<std::string>()` of a column. -/
def asRowString : Option String → Cpp String
  | some s => .ret s
  | none => .raise .fieldValueIsNull

/-! ## Requests -/

/-- What the handler reads of a request; an argument that is absent is empty. -/
structure Request where
  method : HttpMethod
  body : Option Json
  login : ByteString
  name : ByteString
deriving DecidableEq

/-- What a user is registered with. -/
structure Registration where
  login : ByteString
  email : ByteString
  password_hash : ByteString
  first_name : ByteString
  last_name : ByteString
deriving DecidableEq, Repr

/-- The fields of a body, `none` where one is missing. -/
def parseRegistration (body : Option Json) : Except CppError (Option Registration) :=
  match body with
  | none => .error .parseException
  | some json => do
    if !(← HasMember json "login") then return none
    if !(← HasMember json "email") then return none
    if !(← HasMember json "password") then return none
    if !(← HasMember json "first_name") then return none
    if !(← HasMember json "last_name") then return none
    let login ← asString (← member json "login")
    let email ← asString (← member json "email")
    let password_hash ← asString (← member json "password")
    let first_name ← asString (← member json "first_name")
    let last_name ← asString (← member json "last_name")
    return some ⟨login, email, password_hash, first_name, last_name⟩

/-! ## The handler -/

/-- The answer of a registration. -/
def created (user_id : Int) (g : Registration) : Response :=
  ⟨.kCreated, .obj [("id", .int user_id), ("login", .str g.login), ("email", .str g.email),
    ("first_name", .str g.first_name), ("last_name", .str g.last_name)]⟩

/-- `INSERT INTO users`, then `INSERT INTO profiles`. -/
def registerUser (g : Registration) : Cpp Response := do
  let user_res : Int ← Prog.perform (SqlCall.insertUser g.login g.email g.password_hash)
  let user_id ← asRowInt user_res
  Prog.perform (SqlCall.insertProfile user_id g.first_name g.last_name)
  pure (created user_id g)

/-- The items of a result, row by row. -/
def items : List Row → Cpp (List Json)
  | [] => pure []
  | row :: rows => do
    let id ← asRowInt row.id
    let first_name ← asRowString row.first_name
    let last_name ← asRowString row.last_name
    let rest ← items rows
    pure (.obj [("id", .int id), ("login", .str row.username), ("first_name", .str first_name),
      ("last_name", .str last_name)] :: rest)

/-- The listing of the users that are searched for. -/
def listUsers (login name : ByteString) : Cpp Response := do
  let result : List Row ← Prog.perform (SqlCall.selectUsers login name)
  let arr ← items result
  pure ⟨.kOk, arrayBody arr⟩

/-- What is computed without the database. -/
def liftExcept {α : Type} : Except CppError α → Cpp α
  | .ok a => .ret a
  | .error e => .raise e

def HandleRequestThrow (request : Request) : Cpp Response :=
  if request.method = .kPost then do
    match ← liftExcept (parseRegistration request.body) with
    | none => pure ⟨.kBadRequest,
      errorBody "login, email, password, first_name, last_name are required"⟩
    | some g => registerUser g
  else if request.method = .kGet then listUsers request.login request.name
  else pure ⟨.kMethodNotAllowed, errorBody "Method not allowed"⟩

/-! ## What the statements do -/

/-- One statement; a refused one raises. -/
def Db.execute (ilike : String → String → Bool) :
    (c : SqlCall) → Db → Db × Except CppError c.Answer
  | .insertUser username email password_hash, db =>
    match db.insertUser username email password_hash with
    | (db, some id) => (db, .ok id)
    | (db, none) => (db, .error .sqlError)
  | .insertProfile user_id first_name last_name, db =>
    match db.insertProfile user_id first_name last_name with
    | (db, some _) => (db, .ok ())
    | (db, none) => (db, .error .sqlError)
  | .selectUsers login name, db =>
    match db.selectUsers ilike login name with
    | some rows => (db, .ok rows)
    | none => (db, .error .sqlError)

/-- How a statement ends: it answers, or the connection is lost after or before it took effect. -/
inductive Outcome
  | ok
  | raises (applied : Bool)
deriving DecidableEq, Repr

/-- The statement was executed. -/
def Outcome.applied : Outcome → Bool
  | ok => true
  | raises applied => applied

/-- The request got the statement's answer. -/
def Outcome.answers : Outcome → Bool
  | ok => true
  | raises _ => false

def Db.attempt (ilike : String → String → Bool) (c : SqlCall) (o : Outcome) (db : Db) :
    Option (Db × Except CppError c.Answer) :=
  match o with
  | .ok => some (db.execute ilike c)
  | .raises true => some ((db.execute ilike c).1, .error .sqlError)
  | .raises false => some (db, .error .sqlError)

/-- The request is handled, with an outcome for each of its statements. -/
def Db.handle (ilike : String → String → Bool) (db : Db) (request : Request)
    (outcomes : List Outcome) : Option (Db × Except CppError Response) :=
  (HandleRequestThrow request).run (Db.attempt ilike) outcomes db

/-! ## What a result is encoded as -/

/-- The item of a user with a profile. -/
def item (row : Row) : Json :=
  .obj [("id", .int row.id), ("login", .str row.username),
    ("first_name", .str (row.first_name.getD "")), ("last_name", .str (row.last_name.getD ""))]

/-- A row that can be read: its id fits and its names are there. -/
def readable (row : Row) : Prop :=
  isInt32 row.id ∧ row.first_name.isSome = true ∧ row.last_name.isSome = true

instance (row : Row) : Decidable (readable row) := inferInstanceAs (Decidable (_ ∧ _))

/-- A result is encoded row by row, if all its rows can be read. -/
theorem items_eq (rows : List Row) :
    (∀ row ∈ rows, readable row) ∧ items rows = .ret (rows.map item) ∨
      (¬ ∀ row ∈ rows, readable row) ∧ ∃ e, items rows = .raise e := by
  induction rows with
  | nil => exact .inl ⟨fun row h => (nomatch h), rfl⟩
  | cons row rows ih =>
    rw [List.forall_mem_cons]
    unfold items asRowInt
    split_ifs with hid
    · cases hfirst : row.first_name with
      | none =>
        have hnot : ¬ readable row := fun h => by simp [readable, hfirst] at h
        exact .inr ⟨fun h => hnot h.1, _, rfl⟩
      | some first_name =>
      cases hlast : row.last_name with
      | none =>
        have hnot : ¬ readable row := fun h => by simp [readable, hlast] at h
        exact .inr ⟨fun h => hnot h.1, _, rfl⟩
      | some last_name =>
      have hrow : readable row := ⟨hid, by rw [hfirst]; rfl, by rw [hlast]; rfl⟩
      rcases ih with ⟨hall, hrest⟩ | ⟨hnot, e, hrest⟩
      · left
        refine ⟨⟨hrow, hall⟩, ?_⟩
        rw [hrest]
        simp only [asRowString, Prog.ret_bind, Prog.pure_eq_ret, List.map_cons, item, hfirst, hlast,
          Option.getD_some]
      · right
        refine ⟨fun h => hnot h.2, e, ?_⟩
        rw [hrest]
        rfl
    · exact .inr ⟨fun h => hid h.1.1, _, rfl⟩

/-! ## What a request asks for -/

/-- The registration of a request. -/
def Request.post? (request : Request) : Option Registration :=
  if request.method = .kPost then
    match parseRegistration request.body with
    | .ok g => g
    | .error _ => none
  else none

theorem handle_post {request : Request} {g : Registration} (h : request.post? = some g) :
    HandleRequestThrow request = registerUser g := by
  unfold Request.post? at h
  split_ifs at h with hpost
  split at h
  · next q hq =>
    rw [h] at hq
    unfold HandleRequestThrow
    rw [if_pos hpost, hq]
    rfl
  · cases h

theorem handle_get {request : Request} (h : request.method = .kGet) :
    HandleRequestThrow request = listUsers request.login request.name := by
  unfold HandleRequestThrow
  rw [if_neg (by rw [h]; decide), if_pos h]

/-- A request that neither registers nor lists ends without a statement, and creates nothing. -/
theorem handle_other {request : Request} (hp : request.post? = none) (hg : request.method ≠ .kGet) :
    (∃ e, HandleRequestThrow request = .raise e) ∨
      ∃ r : Response, HandleRequestThrow request = .ret r ∧ r.status ≠ .kCreated := by
  unfold HandleRequestThrow
  rw [if_neg hg]
  split_ifs with hpost
  · unfold Request.post? at hp
    rw [if_pos hpost] at hp
    cases hparse : parseRegistration request.body with
    | error e => exact .inl ⟨e, rfl⟩
    | ok q =>
      rw [hparse] at hp
      have hnone : q = none := hp
      rw [hnone]
      exact .inr ⟨_, rfl, fun h => nomatch h⟩
  · exact .inr ⟨_, rfl, fun h => nomatch h⟩

end SocialNetwork.UserService

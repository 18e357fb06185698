import Mathlib.Data.List.Sort
import SocialNetwork.Lib.ByteString
import SocialNetwork.Lib.Table

/-!
# The tables of users and profiles (`db/schema.sql`)

`Db` carries the constraints of both tables as fields, so every value of it satisfies the schema.
The statements of `user-service` are functions on it. What `ILIKE` matches depends on the collation
of the database and is a parameter.
-/

namespace SocialNetwork.UserService

open Relational
open Text (ByteString)

/-! ## Rows and constraints -/

structure User where
  id : Int
  username : String
  email : String
  password_hash : String
deriving DecidableEq, Repr

structure Profile where
  user_id : Int
  first_name : String
  last_name : String
deriving DecidableEq, Repr

/-- The database takes a text in UTF-8 without a NUL. -/
def sendable : ByteString → Prop
  | .text s => '\x00' ∉ s.toList
  | .other _ _ => False

instance : (s : ByteString) → Decidable (sendable s)
  | .text _ => inferInstanceAs (Decidable (_ ∉ _))
  | .other _ _ => inferInstanceAs (Decidable False)

/-- What can be sent is a text. -/
theorem exists_text {s : ByteString} (h : sendable s) : ∃ t : String, s = t := by
  cases s with
  | text t => exact ⟨t, rfl⟩
  | other bytes _ => cases h

/-- What a column of type `VARCHAR(n)` stores of a text: blanks beyond `n` are cut off, a longer
text is an error. -/
def varchar (n : Nat) : ByteString → Option String
  | .text s =>
    if s.length ≤ n then some s
    else if (s.toList.drop n).all fun c => c = ' ' then some (String.ofList (s.toList.take n))
    else none
  | .other _ _ => none

/-- `VARCHAR(100) NOT NULL` and `CHECK (char_length(…) > 0)`. -/
def nameOk (s : String) : Prop := 0 < s.length ∧ s.length ≤ 100

instance (s : String) : Decidable (nameOk s) := inferInstanceAs (Decidable (_ ∧ _))

/-- A database that satisfies the schema, and the next value of its sequence. -/
structure Db where
  users : Table User Int User.id
  profiles : Table Profile Int Profile.user_id
  users_id_seq : Int
  username_unique : (users.rows.map User.username).Nodup
  email_unique : (users.rows.map User.email).Nodup
  username_ok : ∀ u ∈ users.rows, u.username.length ≤ 50
  email_ok : ∀ u ∈ users.rows, u.email.length ≤ 255
  profile_user : ∀ p ∈ profiles.rows, p.user_id ∈ users.rows.map User.id
  names_ok : ∀ p ∈ profiles.rows, nameOk p.first_name ∧ nameOk p.last_name

/-- A row of the listing; the names are null for a user without a profile. -/
structure Row where
  id : Int
  username : String
  first_name : Option String
  last_name : Option String
deriving DecidableEq, Repr

/-- `WHERE ($1::text = '' OR u.username = $1) AND ($2::text = '' OR p.first_name ILIKE
'%' || $2 || '%' OR p.last_name ILIKE '%' || $2 || '%')`; null matches nothing. -/
def Row.selected (ilike : String → String → Bool) (login name : ByteString) (row : Row) : Bool :=
  (login = "" || login = row.username) &&
    (name = "" || name.text?.any fun name =>
      row.first_name.any (fun s => ilike s ("%" ++ name ++ "%")) ||
        row.last_name.any (fun s => ilike s ("%" ++ name ++ "%")))

namespace Db

/-- No users, no profiles. -/
def empty : Db where
  users := Table.empty
  profiles := Table.empty
  users_id_seq := 1
  username_unique := List.nodup_nil
  email_unique := List.nodup_nil
  username_ok _ h := nomatch h
  email_ok _ h := nomatch h
  profile_user _ h := nomatch h
  names_ok _ h := nomatch h

/-! ## Statements -/

/-- The row that `INSERT INTO users` would add. -/
def newUser (db : Db) (username email password_hash : ByteString) : Option User := do
  let username ← varchar 50 username
  let email ← varchar 255 email
  let password_hash ← password_hash.text?
  pure ⟨db.users_id_seq, username, email, password_hash⟩

/-- The row can be added. -/
def UserOk (db : Db) (row : User) : Prop :=
  row.username.length ≤ 50 ∧ row.email.length ≤ 255 ∧
    row.id ∉ db.users.rows.map User.id ∧
    row.username ∉ db.users.rows.map User.username ∧ row.email ∉ db.users.rows.map User.email

instance (db : Db) (row : User) : Decidable (db.UserOk row) := inferInstanceAs (Decidable (_ ∧ _))

/-- A new value keeps a column unique. -/
theorem nodup_append_new {xs : List String} {x : String} (h : xs.Nodup) (hx : x ∉ xs) :
    (xs ++ [x]).Nodup := by
  rw [← List.concat_eq_append]
  exact h.concat hx

def addUser (db : Db) (row : User) (h : db.UserOk row) : Db :=
  { db with
    users := db.users.add [row] ((db.users.nodup_add_iff row).mpr h.2.2.1)
    users_id_seq := db.users_id_seq + 1
    username_unique := by
      rw [Table.add_rows, List.map_append]
      exact nodup_append_new db.username_unique h.2.2.2.1
    email_unique := by
      rw [Table.add_rows, List.map_append]
      exact nodup_append_new db.email_unique h.2.2.2.2
    username_ok := by
      intro u hu
      rcases List.mem_append.mp hu with hu | hu
      · exact db.username_ok u hu
      · rw [List.mem_singleton.mp hu]
        exact h.1
    email_ok := by
      intro u hu
      rcases List.mem_append.mp hu with hu | hu
      · exact db.email_ok u hu
      · rw [List.mem_singleton.mp hu]
        exact h.2.1
    profile_user := by
      intro p hp
      rw [Table.add_rows, List.map_append]
      exact List.mem_append_left _ (db.profile_user p hp) }

/-- `INSERT INTO users(username, email, password_hash) VALUES($1, $2, $3) RETURNING id`. The
sequence advances also when the row is refused. -/
def insertUser (db : Db) (username email password_hash : ByteString) : Db × Option Int :=
  if sendable username ∧ sendable email ∧ sendable password_hash then
    match db.newUser username email password_hash with
    | some row =>
      if h : db.UserOk row then (db.addUser row h, some row.id)
      else ({ db with users_id_seq := db.users_id_seq + 1 }, none)
    | none => ({ db with users_id_seq := db.users_id_seq + 1 }, none)
  else (db, none)

/-- The row that `INSERT INTO profiles` would add. -/
def newProfile (user_id : Int) (first_name last_name : ByteString) : Option Profile := do
  let first_name ← varchar 100 first_name
  let last_name ← varchar 100 last_name
  pure ⟨user_id, first_name, last_name⟩

def ProfileOk (db : Db) (row : Profile) : Prop :=
  nameOk row.first_name ∧ nameOk row.last_name ∧ row.user_id ∈ db.users.rows.map User.id ∧
    row.user_id ∉ db.profiles.rows.map Profile.user_id

instance (db : Db) (row : Profile) : Decidable (db.ProfileOk row) :=
  inferInstanceAs (Decidable (_ ∧ _))

def addProfile (db : Db) (row : Profile) (h : db.ProfileOk row) : Db :=
  { db with
    profiles := db.profiles.add [row] ((db.profiles.nodup_add_iff row).mpr h.2.2.2)
    profile_user := by
      intro p hp
      rcases List.mem_append.mp hp with hp | hp
      · exact db.profile_user p hp
      · rw [List.mem_singleton.mp hp]
        exact h.2.2.1
    names_ok := by
      intro p hp
      rcases List.mem_append.mp hp with hp | hp
      · exact db.names_ok p hp
      · rw [List.mem_singleton.mp hp]
        exact ⟨h.1, h.2.1⟩ }

/-- `INSERT INTO profiles(user_id, first_name, last_name) VALUES($1, $2, $3)`. -/
def insertProfile (db : Db) (user_id : Int) (first_name last_name : ByteString) : Db × Option Unit :=
  if sendable first_name ∧ sendable last_name then
    match newProfile user_id first_name last_name with
    | some row => if h : db.ProfileOk row then (db.addProfile row h, some ()) else (db, none)
    | none => (db, none)
  else (db, none)

/-- `SELECT … FROM users u LEFT JOIN profiles p ON p.user_id = u.id`. -/
def rows (db : Db) : List Row :=
  (leftJoin (fun u p => decide (p.user_id = u.id)) db.users.rows db.profiles.rows).map fun x =>
    ⟨x.1.id, x.1.username, x.2.map Profile.first_name, x.2.map Profile.last_name⟩

/-- The listing, `ORDER BY u.id`; none where an argument cannot be sent. -/
def selectUsers (ilike : String → String → Bool) (db : Db) (login name : ByteString) :
    Option (List Row) :=
  if sendable login ∧ sendable name then
    some ((db.rows.filter (Row.selected ilike login name)).mergeSort fun r r' => r.id ≤ r'.id)
  else none

end Db

end SocialNetwork.UserService

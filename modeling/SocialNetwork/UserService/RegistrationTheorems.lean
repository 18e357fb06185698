import SocialNetwork.Lib.Runs
import SocialNetwork.UserService.Users

/-!
# Registration, all or nothing

The two inserts of a registration are committed one after the other, and are judged by different
constraints: the first by the logins and emails that are taken, the second by the names. A
registration that passes the first and fails the second leaves a user without a profile, and no later
request gives it one (`registration_all_or_nothing_iff`).
-/

namespace SocialNetwork.UserService

open Relational
open Text (ByteString)
open Userver (Json)
open ChatService (CppError Response isInt32)

variable {ilike : String → String → Bool} {db db' : Db} {g : Registration} {o : Outcome}
  {outcomes : List Outcome} {r : Except CppError Response} {request : Request}

/-! ## When an insert takes effect -/

namespace Db

/-- The user can be inserted. -/
def acceptsUser (db : Db) (g : Registration) : Prop :=
  (sendable g.login ∧ sendable g.email ∧ sendable g.password_hash) ∧
    (db.newUser g.login g.email g.password_hash).any fun row => decide (db.UserOk row)

/-- A name can be stored: it is a text in UTF-8 without a NUL and has, without the blanks beyond 100,
between 1 and 100 characters. -/
def acceptsName (s : ByteString) : Prop := sendable s ∧ (varchar 100 s).any fun t => decide (nameOk t)

instance (db : Db) (g : Registration) : Decidable (db.acceptsUser g) :=
  inferInstanceAs (Decidable (_ ∧ _))

instance (s : ByteString) : Decidable (acceptsName s) := inferInstanceAs (Decidable (_ ∧ _))

/-- One user is new. -/
structure UserAdded (db db' : Db) (row : User) : Prop where
  users : db'.users.rows = db.users.rows ++ [row]
  profiles : db'.profiles.rows = db.profiles.rows
  id : row.id = db.users_id_seq
  fresh : row.id ∉ db.users.rows.map User.id

/-- One profile is new. -/
structure ProfileAdded (db db' : Db) (user_id : Int) : Prop where
  users : db'.users.rows = db.users.rows
  profiles : ∃ row : Profile, row.user_id = user_id ∧ db'.profiles.rows = db.profiles.rows ++ [row]

/-- The same users and profiles; the sequence may have advanced. -/
structure SameRows (db db' : Db) : Prop where
  users : db'.users.rows = db.users.rows
  profiles : db'.profiles.rows = db.profiles.rows

/-- The first `INSERT`, when the columns take the values. -/
theorem insertUser_eq (h : db.acceptsUser g) :
    ∃ db₁ row, db.insertUser g.login g.email g.password_hash = (db₁, some row.id) ∧
      db.UserAdded db₁ row := by
  obtain ⟨hsend, hany⟩ := h
  obtain ⟨row, hrow, hok⟩ := (Option.any_eq_true _ _).mp hany
  rw [decide_eq_true_eq] at hok
  have hid : row.id = db.users_id_seq := by
    unfold newUser at hrow
    obtain ⟨username, -, hrow⟩ := Option.bind_eq_some_iff.mp hrow
    obtain ⟨email, -, hrow⟩ := Option.bind_eq_some_iff.mp hrow
    obtain ⟨password_hash, -, hrow⟩ := Option.bind_eq_some_iff.mp hrow
    rw [← Option.some.inj hrow]
  refine ⟨db.addUser row hok, row, ?_, rfl, rfl, hid, hok.2.2.1⟩
  unfold insertUser
  rw [if_pos hsend, hrow]
  exact dif_pos hok

/-- The first `INSERT`, when they do not. -/
theorem insertUser_refused (h : ¬ db.acceptsUser g) :
    ∃ db₁, db.insertUser g.login g.email g.password_hash = (db₁, none) ∧ db.SameRows db₁ := by
  unfold insertUser
  split_ifs with hsend
  · split
    · next row hrow =>
      rw [dif_neg fun hok => h ⟨hsend, (Option.any_eq_true _ _).mpr ⟨row, hrow, decide_eq_true hok⟩⟩]
      exact ⟨_, rfl, rfl, rfl⟩
    · exact ⟨_, rfl, rfl, rfl⟩
  · exact ⟨_, rfl, rfl, rfl⟩

/-- A user without a profile gets one, if both names can be stored. -/
theorem insertProfile_eq {user_id : Int} (huser : user_id ∈ db.users.rows.map User.id)
    (hnone : user_id ∉ db.profiles.rows.map Profile.user_id) (hfirst : acceptsName g.first_name)
    (hlast : acceptsName g.last_name) :
    ∃ db₁, db.insertProfile user_id g.first_name g.last_name = (db₁, some ()) ∧
      db.ProfileAdded db₁ user_id := by
  obtain ⟨hsend, hany⟩ := hfirst
  obtain ⟨hsend', hany'⟩ := hlast
  obtain ⟨first_name, hf, hfok⟩ := (Option.any_eq_true _ _).mp hany
  obtain ⟨last_name, hl, hlok⟩ := (Option.any_eq_true _ _).mp hany'
  rw [decide_eq_true_eq] at hfok hlok
  have hrow : newProfile user_id g.first_name g.last_name =
      some ⟨user_id, first_name, last_name⟩ := by
    unfold newProfile
    rw [hf, hl]
    rfl
  have hok : db.ProfileOk ⟨user_id, first_name, last_name⟩ := ⟨hfok, hlok, huser, hnone⟩
  refine ⟨db.addProfile _ hok, ?_, rfl, _, rfl, rfl⟩
  unfold insertProfile
  rw [if_pos ⟨hsend, hsend'⟩, hrow]
  exact dif_pos hok

/-- The second `INSERT`, when a name is refused. -/
theorem insertProfile_refused {user_id : Int}
    (h : ¬ (acceptsName g.first_name ∧ acceptsName g.last_name)) :
    db.insertProfile user_id g.first_name g.last_name = (db, none) := by
  unfold insertProfile
  split_ifs with hsend
  · split
    · next row hrow =>
      refine dif_neg fun hok => h ?_
      unfold newProfile at hrow
      obtain ⟨first_name, hf, hrow⟩ := Option.bind_eq_some_iff.mp hrow
      obtain ⟨last_name, hl, hrow⟩ := Option.bind_eq_some_iff.mp hrow
      rw [← Option.some.inj hrow] at hok
      exact ⟨⟨hsend.1, (Option.any_eq_true _ _).mpr ⟨first_name, hf, decide_eq_true hok.1⟩⟩,
        hsend.2, (Option.any_eq_true _ _).mpr ⟨last_name, hl, decide_eq_true hok.2.1⟩⟩
    · rfl
  · rfl

end Db

/-! ## A statement with its outcome -/

theorem applied_of_answers (ho : o.answers = true) : o.applied = true := by
  cases o with
  | ok => rfl
  | raises applied => cases ho

/-- A statement takes effect when it is executed, and is answered when the connection holds. -/
theorem attempt_eq {c : SqlCall} {x : Except CppError c.Answer}
    (h : db.attempt ilike c o = some (db', x)) :
    db' = (if o.applied then (db.execute ilike c).1 else db) ∧
      x = if o.answers then (db.execute ilike c).2 else .error .sqlError := by
  rcases o with _ | _ | _ <;> have hx := Option.some.inj h
  · exact ⟨congrArg Prod.fst hx.symm, congrArg Prod.snd hx.symm⟩
  · exact ⟨congrArg Prod.fst hx.symm, congrArg Prod.snd hx.symm⟩
  · exact ⟨congrArg Prod.fst hx.symm, congrArg Prod.snd hx.symm⟩

/-- `INSERT INTO users`. -/
theorem attempt_insertUser {x : Except CppError Int}
    (h : db.attempt ilike (.insertUser g.login g.email g.password_hash) o = some (db', x)) :
    if o.applied = true ∧ db.acceptsUser g then
      (∃ row, db.UserAdded db' row) ∧
        x = if o.answers then .ok db.users_id_seq else .error .sqlError
    else db.SameRows db' ∧ x = .error .sqlError := by
  obtain ⟨hdb, hx⟩ := attempt_eq h
  by_cases hacc : db.acceptsUser g
  · obtain ⟨db₁, row, hins, hadded⟩ := Db.insertUser_eq hacc
    simp only [Db.execute, hins, hadded.id] at hdb hx
    -- the row is added if the statement takes effect, whether it is answered or not
    by_cases ho : o.applied = true
    · rw [if_pos ⟨ho, hacc⟩]
      rw [if_pos ho] at hdb
      rw [hdb]
      exact ⟨⟨row, hadded⟩, hx⟩
    · have hans : ¬ o.answers = true := fun hans => ho (applied_of_answers hans)
      rw [if_neg fun happ => ho happ.1]
      rw [if_neg ho] at hdb
      rw [if_neg hans] at hx
      rw [hdb]
      exact ⟨⟨rfl, rfl⟩, hx⟩
  · obtain ⟨db₁, hins, hsame⟩ := Db.insertUser_refused hacc
    simp only [Db.execute, hins] at hdb hx
    rw [if_neg fun happ => hacc happ.2]
    refine ⟨?_, hx.trans (ite_self _)⟩
    rw [hdb]
    split_ifs
    · exact hsame
    · exact ⟨rfl, rfl⟩

/-- `INSERT INTO profiles`, for a user without a profile. -/
theorem attempt_insertProfile {user_id : Int} {x : Except CppError Unit}
    (huser : user_id ∈ db.users.rows.map User.id)
    (hnone : user_id ∉ db.profiles.rows.map Profile.user_id)
    (h : db.attempt ilike (.insertProfile user_id g.first_name g.last_name) o = some (db', x)) :
    if o.applied = true ∧ Db.acceptsName g.first_name ∧ Db.acceptsName g.last_name then
      db.ProfileAdded db' user_id ∧ x = if o.answers then .ok () else .error .sqlError
    else db' = db ∧ x = .error .sqlError := by
  obtain ⟨hdb, hx⟩ := attempt_eq h
  by_cases hacc : Db.acceptsName g.first_name ∧ Db.acceptsName g.last_name
  · obtain ⟨db₁, hins, hadded⟩ := Db.insertProfile_eq huser hnone hacc.1 hacc.2
    simp only [Db.execute, hins] at hdb hx
    by_cases ho : o.applied = true
    · rw [if_pos ⟨ho, hacc⟩]
      rw [if_pos ho] at hdb
      rw [hdb]
      exact ⟨hadded, hx⟩
    · have hans : ¬ o.answers = true := fun hans => ho (applied_of_answers hans)
      rw [if_neg fun happ => ho happ.1]
      rw [if_neg ho] at hdb
      rw [if_neg hans] at hx
      exact ⟨hdb, hx⟩
  · have hins : db.insertProfile user_id g.first_name g.last_name = (db, none) :=
      Db.insertProfile_refused hacc
    simp only [Db.execute, hins] at hdb hx
    rw [if_neg fun happ => hacc happ.2]
    exact ⟨hdb.trans (ite_self _), hx.trans (ite_self _)⟩

/-! ## All or nothing -/

/-- The answer is 201. -/
def Created (r : Except CppError Response) : Prop :=
  ∃ response, r = .ok response ∧ response.status = .kCreated

/-- A user and its profile are new and the answer is 201, or the rows are what they were. -/
def AllOrNothing (db db' : Db) (r : Except CppError Response) : Prop :=
  (Created r ∧ ∃ (user : User) (profile : Profile), profile.user_id = user.id ∧
      db'.users.rows = db.users.rows ++ [user] ∧
      db'.profiles.rows = db.profiles.rows ++ [profile]) ∨
    db.SameRows db'

/-- If the insert of the user takes effect, all that follows succeeds. -/
def Registers (db : Db) (g : Registration) : List Outcome → Prop
  | [] => True
  | o :: outcomes =>
    o.applied = true ∧ db.acceptsUser g →
      (∀ o' ∈ o :: outcomes, o'.answers = true) ∧ isInt32 db.users_id_seq ∧
        Db.acceptsName g.first_name ∧ Db.acceptsName g.last_name

theorem not_created_error {e : CppError} : ¬ Created (.error e) := fun h => nomatch h.choose_spec.1

/-- After the insert of the user, that of the profile takes effect. -/
def AddsProfile (db : Db) (g : Registration) (o : Outcome) (rest : List Outcome) : Prop :=
  o.answers = true ∧ isInt32 db.users_id_seq ∧ (∀ o' ∈ rest, o'.applied = true) ∧
    Db.acceptsName g.first_name ∧ Db.acceptsName g.last_name

/-- The insert of the user takes effect: the user is new, and its profile is or is not. -/
structure Registered (db : Db) (g : Registration) (o : Outcome) (rest : List Outcome) (user : User)
    (db' : Db) (r : Except CppError Response) : Prop where
  applied : o.applied = true ∧ db.acceptsUser g
  users : db'.users.rows = db.users.rows ++ [user]
  fresh : user.id ∉ db.users.rows.map User.id
  profiles : AddsProfile db g o rest ∧
      (∃ profile : Profile, profile.user_id = user.id ∧
        db'.profiles.rows = db.profiles.rows ++ [profile]) ∧
      (Created r ↔ ∀ o' ∈ rest, o'.answers = true) ∨
    ¬ AddsProfile db g o rest ∧ db'.profiles.rows = db.profiles.rows ∧ ¬ Created r

/-- What a registration does, statement by statement. -/
theorem registerUser_cases
    (hrun : (registerUser g).run (Db.attempt ilike) outcomes db = some (db', r)) :
    ∃ o rest, outcomes = o :: rest ∧
      ((∃ user, Registered db g o rest user db' r) ∨
        ¬ (o.applied = true ∧ db.acceptsUser g) ∧ db.SameRows db') := by
  obtain ⟨o, rest, db₁, x, rfl, hattempt, hrest⟩ := Prog.run_perform_bind.mp hrun
  refine ⟨o, rest, rfl, ?_⟩
  have hinsert := attempt_insertUser hattempt
  split_ifs at hinsert with happ hans
  · obtain ⟨⟨row, hadded⟩, rfl⟩ := hinsert
    refine .inl ⟨row, ?_⟩
    have hrun' : (asRowInt db.users_id_seq >>= fun user_id => Prog.perform
        (SqlCall.insertProfile user_id g.first_name g.last_name) >>= fun _ =>
          pure (created user_id g)).run (Db.attempt ilike) rest db₁ = some (db', r) := hrest
    unfold asRowInt at hrun'
    split_ifs at hrun' with hfits
    · obtain ⟨o₂, rest₂, db₂, y, rfl, hattempt₂, hrest₂⟩ := Prog.run_perform_bind.mp hrun'
      have huser : db.users_id_seq ∈ db₁.users.rows.map User.id := by
        rw [hadded.users, List.map_append, ← hadded.id]
        exact List.mem_append_right _ (List.mem_singleton_self _)
      have hnone : db.users_id_seq ∉ db₁.profiles.rows.map Profile.user_id := by
        rw [hadded.profiles, ← hadded.id]
        intro hmem
        obtain ⟨profile, hprofile, hid⟩ := List.mem_map.mp hmem
        exact hadded.fresh (hid ▸ db.profile_user profile hprofile)
      have hinsert₂ := attempt_insertProfile huser hnone hattempt₂
      split_ifs at hinsert₂ with happ₂ hans₂
      · obtain ⟨hprofile, rfl⟩ := hinsert₂
        obtain ⟨rfl, hx⟩ := Prog.run_ret.mp hrest₂
        cases hx
        obtain ⟨profile, hid, hprofiles⟩ := hprofile.profiles
        refine ⟨happ, by rw [hprofile.users, hadded.users], hadded.fresh, .inl ⟨?_, ?_, ?_⟩⟩
        · exact ⟨hans, hfits, fun o' ho' => List.mem_singleton.mp ho' ▸ happ₂.1, happ₂.2⟩
        · exact ⟨profile, hid.trans hadded.id.symm, by rw [hprofiles, hadded.profiles]⟩
        · exact iff_of_true ⟨_, rfl, rfl⟩ fun o' ho' => List.mem_singleton.mp ho' ▸ hans₂
      · obtain ⟨hprofile, rfl⟩ := hinsert₂
        obtain ⟨rfl, hx⟩ := hrest₂
        cases hx
        obtain ⟨profile, hid, hprofiles⟩ := hprofile.profiles
        refine ⟨happ, by rw [hprofile.users, hadded.users], hadded.fresh, .inl ⟨?_, ?_, ?_⟩⟩
        · exact ⟨hans, hfits, fun o' ho' => List.mem_singleton.mp ho' ▸ happ₂.1, happ₂.2⟩
        · exact ⟨profile, hid.trans hadded.id.symm, by rw [hprofiles, hadded.profiles]⟩
        · exact iff_of_false not_created_error fun hall => hans₂ (hall o₂ List.mem_cons_self)
      · obtain ⟨rfl, rfl⟩ := hinsert₂
        obtain ⟨-, hx⟩ := hrest₂
        cases hx
        refine ⟨happ, hadded.users, hadded.fresh, .inr ⟨?_, hadded.profiles, not_created_error⟩⟩
        exact fun hadds => happ₂ ⟨hadds.2.2.1 o₂ List.mem_cons_self, hadds.2.2.2⟩
    · obtain ⟨-, hx⟩ := Prog.run_raise.mp hrun'
      cases hx
      refine ⟨happ, hadded.users, hadded.fresh, .inr ⟨?_, hadded.profiles, not_created_error⟩⟩
      exact fun hadds => hfits hadds.2.1
  · -- the answer is lost, and the user stays
    obtain ⟨⟨row, hadded⟩, rfl⟩ := hinsert
    obtain ⟨-, hx⟩ := hrest
    cases hx
    refine .inl ⟨row, happ, hadded.users, hadded.fresh, .inr ⟨?_, hadded.profiles,
      not_created_error⟩⟩
    exact fun hadds => hans hadds.1
  · obtain ⟨hsame, rfl⟩ := hinsert
    obtain ⟨-, hx⟩ := hrest
    cases hx
    exact .inr ⟨happ, hsame⟩

/-- A registration is all or nothing if and only if nothing fails after its first insert. -/
theorem registerUser_run
    (hrun : (registerUser g).run (Db.attempt ilike) outcomes db = some (db', r)) :
    AllOrNothing db db' r ↔ Registers db g outcomes := by
  obtain ⟨o, rest, rfl, ⟨user, h⟩ | ⟨happ, hsame⟩⟩ := registerUser_cases hrun
  · have hnot : ¬ db.SameRows db' := by
      intro hsame
      have hlength := congrArg List.length (hsame.users.symm.trans h.users)
      simp only [List.length_append, List.length_singleton] at hlength
      omega
    have hregisters : Registers db g (o :: rest) ↔
        (∀ o' ∈ o :: rest, o'.answers = true) ∧ isInt32 db.users_id_seq ∧
          Db.acceptsName g.first_name ∧ Db.acceptsName g.last_name :=
      ⟨fun hreg => hreg h.applied, fun hall _ => hall⟩
    rw [hregisters, List.forall_mem_cons]
    rcases h.profiles with ⟨hadds, ⟨profile, hid, hprofiles⟩, hcreated⟩ | ⟨hadds, -, hcreated⟩
    · constructor
      · rintro (⟨hok, -⟩ | hsame)
        · exact ⟨⟨hadds.1, hcreated.mp hok⟩, hadds.2.1, hadds.2.2.2⟩
        · exact absurd hsame hnot
      · intro hall
        exact .inl ⟨hcreated.mpr hall.1.2, user, profile, hid, h.users, hprofiles⟩
    · constructor
      · rintro (⟨hok, -⟩ | hsame)
        · exact absurd hok hcreated
        · exact absurd hsame hnot
      · intro hall
        have happlied : ∀ o' ∈ rest, o'.applied = true :=
          fun o' ho' => applied_of_answers (hall.1.2 o' ho')
        exact absurd ⟨hall.1.1, hall.2.1, happlied, hall.2.2⟩ hadds
  · exact iff_of_true (.inr hsame) fun h => absurd h happ

/-- Listing the users writes nothing. -/
theorem listUsers_run {login name : ByteString}
    (h : (listUsers login name).run (Db.attempt ilike) outcomes db = some (db', r)) : db' = db := by
  obtain ⟨o, rest, db₁, x, -, hattempt, hrest⟩ := Prog.run_perform_bind.mp h
  have hsame : db₁ = db := by
    have hread : (db.execute ilike (.selectUsers login name)).1 = db := by
      cases hselect : db.selectUsers ilike login name with
      | none => simp only [Db.execute, hselect]
      | some rows => simp only [Db.execute, hselect]
    rw [(attempt_eq hattempt).1, hread]
    exact ite_self _
  have hitems : ∀ (rows : List Row) rest,
      (items rows >>= fun arr => pure ⟨.kOk, ChatService.arrayBody arr⟩ : Cpp Response).run
        (Db.attempt ilike) rest db₁ = some (db', r) → db' = db₁ := by
    intro rows rest hrest
    rcases items_eq rows with ⟨-, heq⟩ | ⟨-, e, heq⟩
    · rw [heq] at hrest
      exact congrArg Prod.fst (Prog.run_ret.mp hrest).2
    · rw [heq] at hrest
      exact congrArg Prod.fst (Prog.run_raise.mp hrest).2
  rw [← hsame]
  cases x with
  | error e => exact congrArg Prod.fst hrest.2
  | ok rows => exact hitems rows rest hrest

/-- A request that registers nobody leaves the database as it was. -/
theorem handle_same (hp : request.post? = none)
    (hrun : db.handle ilike request outcomes = some (db', r)) : db' = db := by
  unfold Db.handle at hrun
  by_cases hg : request.method = .kGet
  · rw [handle_get hg] at hrun
    exact listUsers_run hrun
  · rcases handle_other hp hg with ⟨e, he⟩ | ⟨response, hresponse, -⟩
    · rw [he] at hrun
      exact congrArg Prod.fst (Prog.run_raise.mp hrun).2
    · rw [hresponse] at hrun
      exact congrArg Prod.fst (Prog.run_ret.mp hrun).2

/-- A user has a profile. -/
def Db.hasProfile (db : Db) (u : User) : Prop := u.id ∈ db.profiles.rows.map Profile.user_id

instance (db : Db) (u : User) : Decidable (db.hasProfile u) := inferInstanceAs (Decidable (_ ∈ _))

/-! ## Runs of requests -/

/-- A request with the outcomes of its statements. -/
def step (ilike : String → String → Bool) (db : Db) (x : Request × List Outcome) : Option Db :=
  (db.handle ilike x.1 x.2).map Prod.fst

/-- A registration succeeds once its user is inserted. -/
def Completes (db : Db) (x : Request × List Outcome) : Prop :=
  ∀ g, x.1.post? = some g → Registers db g x.2

/-- If a request registers a user, it adds the profile. -/
def KeepsProfiles (db : Db) (x : Request × List Outcome) : Prop :=
  ∀ g, x.1.post? = some g → ∀ o rest, x.2 = o :: rest →
    o.applied = true ∧ db.acceptsUser g → AddsProfile db g o rest

/-- A registration that completes leaves nobody without a profile. -/
theorem Completes.keepsProfiles {x : Request × List Outcome} (h : Completes db x) :
    KeepsProfiles db x := by
  intro g hg o rest hcons happ
  have hregisters := h g hg
  rw [hcons] at hregisters
  obtain ⟨hanswers, hfits, hnames⟩ := hregisters happ
  rw [List.forall_mem_cons] at hanswers
  exact ⟨hanswers.1, hfits, fun o' ho' => applied_of_answers (hanswers.2 o' ho'), hnames⟩

section Profiles

-- the users that were there before the run
variable {old : List User}

/-- A registration leaves no new user without a profile just if it adds one with its user. -/
theorem registered_hasProfile {o : Outcome} {rest : List Outcome} {user : User}
    (hold : ∀ u ∈ old, u ∈ db.users.rows) (h : Registered db g o rest user db' r) :
    (∀ u ∈ db'.users.rows, u ∈ old ∨ db'.hasProfile u) ↔
      (∀ u ∈ db.users.rows, u ∈ old ∨ db.hasProfile u) ∧ AddsProfile db g o rest := by
  have hnew : user ∈ db'.users.rows := by
    rw [h.users]
    exact List.mem_append_right _ (List.mem_singleton_self _)
  have hkept : ∀ u ∈ db.users.rows, u ∈ db'.users.rows := by
    intro u hu
    rw [h.users]
    exact List.mem_append_left _ hu
  have hne : ∀ u ∈ db.users.rows, user.id ≠ u.id := by
    intro u hu heq
    exact h.fresh (heq ▸ List.mem_map_of_mem hu)
  rcases h.profiles with ⟨hadds, ⟨profile, hid, hprofiles⟩, -⟩ | ⟨hadds, hprofiles, -⟩
  · have hmem : ∀ u, db'.hasProfile u ↔ db.hasProfile u ∨ u.id = user.id := by
      intro u
      unfold Db.hasProfile
      rw [hprofiles, List.map_append, List.mem_append, List.map_singleton, List.mem_singleton, hid]
    constructor
    · intro hall
      refine ⟨fun u hu => ?_, hadds⟩
      rcases hall u (hkept u hu) with hu' | hu'
      · exact .inl hu'
      · rcases (hmem u).mp hu' with hu' | hu'
        · exact .inr hu'
        · exact absurd hu'.symm (hne u hu)
    · rintro ⟨hall, -⟩ u hu
      rw [h.users] at hu
      rcases List.mem_append.mp hu with hu | hu
      · exact (hall u hu).imp id fun hu' => (hmem u).mpr (.inl hu')
      · exact .inr ((hmem u).mpr (.inr (congrArg User.id (List.mem_singleton.mp hu))))
  · refine iff_of_false (fun hall => ?_) fun hall => hadds hall.2
    rcases hall user hnew with hmem | hprofile
    · exact hne user (hold user hmem) rfl
    · -- a profile belongs to a user that was there
      have huser : user.id ∈ db.profiles.rows.map Profile.user_id := hprofiles ▸ hprofile
      obtain ⟨profile, hmem, hid⟩ := List.mem_map.mp huser
      exact h.fresh (hid ▸ db.profile_user profile hmem)

theorem hasProfile_of_sameRows (h : db.SameRows db') :
    (∀ u ∈ db'.users.rows, u ∈ old ∨ db'.hasProfile u) ↔
      ∀ u ∈ db.users.rows, u ∈ old ∨ db.hasProfile u := by
  unfold Db.hasProfile
  rw [h.users, h.profiles]

/-- One request. -/
theorem step_hasProfile {x : Request × List Outcome} (hold : ∀ u ∈ old, u ∈ db.users.rows)
    (h : step ilike db x = some db') :
    (∀ u ∈ old, u ∈ db'.users.rows) ∧
      ((∀ u ∈ db'.users.rows, u ∈ old ∨ db'.hasProfile u) ↔
        (∀ u ∈ db.users.rows, u ∈ old ∨ db.hasProfile u) ∧ KeepsProfiles db x) := by
  obtain ⟨⟨db₁, r⟩, hrun, rfl⟩ := Option.map_eq_some_iff.mp h
  cases hp : x.1.post? with
  | some g =>
    unfold Db.handle at hrun
    rw [handle_post hp] at hrun
    obtain ⟨o, rest, hcons, hcases⟩ := registerUser_cases hrun
    have hkeeps : KeepsProfiles db x ↔
        (o.applied = true ∧ db.acceptsUser g → AddsProfile db g o rest) := by
      constructor
      · intro hall
        exact hall g hp o rest hcons
      · intro hadds g' hg' o' rest' hcons'
        rw [hp] at hg'
        rw [hcons] at hcons'
        cases hg'
        cases hcons'
        exact hadds
    rw [hkeeps]
    rcases hcases with ⟨user, hregistered⟩ | ⟨happ, hsame⟩
    · refine ⟨fun u hu => ?_, ?_⟩
      · rw [hregistered.users]
        exact List.mem_append_left _ (hold u hu)
      · rw [registered_hasProfile hold hregistered]
        exact and_congr Iff.rfl ⟨fun hadds _ => hadds, fun hadds => hadds hregistered.applied⟩
    · refine ⟨fun u hu => ?_, ?_⟩
      · rw [hsame.users]
        exact hold u hu
      · rw [hasProfile_of_sameRows hsame]
        exact (and_iff_left fun hacc => absurd hacc happ).symm
  | none =>
    have hsame : db₁ = db := handle_same hp hrun
    rw [hsame]
    refine ⟨hold, (and_iff_left fun g hg => ?_).symm⟩
    rw [hp] at hg
    cases hg

end Profiles

/-- One request is all or nothing just if nothing fails after the insert of its user. -/
theorem allOrNothing_iff (hrun : db.handle ilike request outcomes = some (db', r)) :
    AllOrNothing db db' r ↔ Completes db (request, outcomes) := by
  cases hp : request.post? with
  | some g =>
    unfold Db.handle at hrun
    rw [handle_post hp] at hrun
    rw [registerUser_run hrun]
    constructor
    · intro h g' heq
      rw [← Option.some.inj (hp.symm.trans heq)]
      exact h
    · exact fun h => h g hp
  | none =>
    have hsame := handle_same hp hrun
    rw [hsame]
    exact iff_of_true (.inr ⟨rfl, rfl⟩) fun g h => nomatch hp.symm.trans h

/-- **All or nothing.** In every run of requests, from any database: a request adds a user with its
profile and is answered with 201, or changes nothing, just if nothing fails after the insert of its
user; every user that the run has added has a profile in every state just if every request that added
one went on to add its profile; and it did so if all requests are all or nothing. -/
theorem registration_all_or_nothing_iff {db₀ : Db} {requests : List (Request × List Outcome)}
    (hrun : Runs.exec (step ilike) db₀ requests = some db) :
    (∀ before x after m m' r, requests = before ++ x :: after →
      Runs.exec (step ilike) db₀ before = some m → m.handle ilike x.1 x.2 = some (m', r) →
        (AllOrNothing m m' r ↔ Completes m x)) ∧
    ((∀ before after m, requests = before ++ after → Runs.exec (step ilike) db₀ before = some m →
        ∀ u ∈ m.users.rows, u ∈ db₀.users.rows ∨ m.hasProfile u) ↔
      Runs.Meets (step ilike) KeepsProfiles db₀ requests) ∧
    (Runs.Meets (step ilike) Completes db₀ requests →
      Runs.Meets (step ilike) KeepsProfiles db₀ requests) := by
  refine ⟨fun before x after m m' r _ _ hhandle => allOrNothing_iff hhandle, ?_,
    Runs.Meets.mono (fun _ _ => Completes.keepsProfiles)⟩
  refine Runs.forall_states_iff (I := fun m : Db => ∀ u ∈ db₀.users.rows, u ∈ m.users.rows) ?_
    (fun _ => id) (fun _ => .inl) hrun
  intro m x m' hold hprofiles hstep
  obtain ⟨hold', hiff⟩ := step_hasProfile hold hstep
  exact ⟨hold', hiff.trans (and_iff_right hprofiles)⟩

/-! ## Two registrations -/

def postRequest (login email password first_name last_name : ByteString) : Request :=
  ⟨.kPost, some (.obj [("login", .str login), ("email", .str email), ("password", .str password),
    ("first_name", .str first_name), ("last_name", .str last_name)]), "", ""⟩

def contains (text pattern : String) : Bool := pattern = "%" ++ text ++ "%"

/-- Alice is registered, and the connection is lost before Bob is. -/
def registerBoth : List (Request × List Outcome) :=
  [(postRequest "alice" "alice@example.com" "secret" "Alice" "A", [.ok, .ok]),
    (postRequest "bob" "bob@example.com" "secret" "" "B", [.raises false])]

/-- Both registrations are all or nothing, and every user has a profile. -/
theorem registration_all_or_nothing_iff_named :
    ∃ db, Runs.exec (step contains) Db.empty registerBoth = some db ∧
      db.users.rows = [⟨1, "alice", "alice@example.com", "secret"⟩] ∧
      ∀ u ∈ db.users.rows, db.hasProfile u := by
  have hmap : (Runs.exec (step contains) Db.empty registerBoth).map (fun db => db.users.rows) =
      some [⟨1, "alice", "alice@example.com", "secret"⟩] := by rfl
  obtain ⟨db, hrun, husers⟩ := Option.map_eq_some_iff.mp hmap
  have hcompletes : Runs.Meets (step contains) Completes Db.empty registerBoth := by
    refine ⟨fun g hg => ?_, fun m _ => ⟨fun g _ happ => absurd happ.1 nofun, fun _ _ => trivial⟩⟩
    have hpost : (postRequest "alice" "alice@example.com" "secret" "Alice" "A").post? =
        some ⟨"alice", "alice@example.com", "secret", "Alice", "A"⟩ := by decide
    rw [← Option.some.inj (hpost.symm.trans hg)]
    exact fun _ => by decide
  obtain ⟨-, hprofiles, hkeeps⟩ := registration_all_or_nothing_iff hrun
  refine ⟨db, hrun, husers, fun u hu => ?_⟩
  rcases hprofiles.mpr (hkeeps hcompletes) registerBoth [] db rfl hrun u hu with hold | hprofile
  · cases hold
  · exact hprofile

/-- A user is registered with an empty name: the answer is an error and the user is there. -/
theorem nameless_registration_leaves_a_user :
    ∃ db' r, Db.empty.handle contains (postRequest "bob" "bob@example.com" "secret" "" "B")
        [.ok, .ok] = some (db', r) ∧ ¬ AllOrNothing Db.empty db' r ∧
      ∃ u ∈ db'.users.rows, ¬ db'.hasProfile u := by
  have hmap : (Db.empty.handle contains (postRequest "bob" "bob@example.com" "secret" "" "B")
      [.ok, .ok]).map (fun x => (x.1.users.rows, x.1.profiles.rows.length, x.2)) =
        some ([⟨1, "bob", "bob@example.com", "secret"⟩], 0, .error .sqlError) := by rfl
  obtain ⟨⟨db', r⟩, hrun, hx⟩ := Option.map_eq_some_iff.mp hmap
  simp only [Prod.mk.injEq] at hx
  obtain ⟨husers, hprofiles, rfl⟩ := hx
  have hnone : db'.profiles.rows = [] := List.length_eq_zero_iff.mp hprofiles
  refine ⟨db', _, hrun, ?_, ⟨1, "bob", "bob@example.com", "secret"⟩, ?_, ?_⟩
  · rintro (⟨hcreated, -⟩ | hsame)
    · exact not_created_error hcreated
    · rw [hsame.users] at husers
      cases husers
  · rw [husers]
    exact List.mem_singleton_self _
  · unfold Db.hasProfile
    rw [hnone]
    exact List.not_mem_nil

end SocialNetwork.UserService

import SocialNetwork.UserService.RegistrationTheorems

/-!
# The listing after a run of registrations

The listing reads the names of every user it selects as strings, so it fails on a user without a
profile. Which users have one is decided by the run that led to the database: all of them, just if
every registration was all or nothing.
-/

namespace SocialNetwork.UserService

open Text (ByteString)
open Relational
open ChatService (CppError Response isInt32 arrayBody)

variable {ilike : String → String → Bool} {db db' : Db} {login name : ByteString}

/-! ## The rows of the listing -/

namespace Db

/-- The row of a user. -/
def row (db : Db) (u : User) : Row :=
  let profile := db.profiles.rows.find? fun p => decide (p.user_id = u.id)
  ⟨u.id, u.username, profile.map Profile.first_name, profile.map Profile.last_name⟩

/-- The users that both filters select. -/
def selected (ilike : String → String → Bool) (db : Db) (login name : ByteString) : List User :=
  db.users.rows.filter fun u => (db.row u).selected ilike login name

/-- Every user has one row. -/
theorem rows_eq (db : Db) : db.rows = db.users.rows.map db.row := by
  unfold rows
  rw [leftJoin_eq_map fun u _ => db.profiles.length_filter_key_le u.id, List.map_map]
  rfl

/-- Without filters every user is selected. -/
theorem selected_empty (ilike : String → String → Bool) (db : Db) :
    db.selected ilike "" "" = db.users.rows := by
  unfold selected Row.selected
  exact List.filter_eq_self.mpr fun u _ => rfl

/-- The selected users in the order of their ids. -/
def sorted (ilike : String → String → Bool) (db : Db) (login name : ByteString) : List User :=
  (db.selected ilike login name).mergeSort fun u u' => u.id ≤ u'.id

theorem sorted_perm : (db.sorted ilike login name).Perm (db.selected ilike login name) :=
  List.mergeSort_perm _ _

theorem sorted_pairwise : (db.sorted ilike login name).Pairwise fun u u' => u.id < u'.id := by
  have hle : (db.sorted ilike login name).Pairwise fun u u' => u.id ≤ u'.id := by
    have htrans : ∀ a b c : User, decide (a.id ≤ b.id) = true → decide (b.id ≤ c.id) = true →
        decide (a.id ≤ c.id) = true := by
      intro a b c hab hbc
      simp only [decide_eq_true_eq] at hab hbc ⊢
      omega
    have htotal : ∀ a b : User, (decide (a.id ≤ b.id) || decide (b.id ≤ a.id)) = true := by
      intro a b
      simp only [Bool.or_eq_true, decide_eq_true_eq]
      omega
    exact (List.pairwise_mergeSort htrans htotal (db.selected ilike login name)).imp
      of_decide_eq_true
  have hnodup : ((db.sorted ilike login name).map User.id).Nodup := by
    rw [(sorted_perm.map User.id).nodup_iff]
    exact db.users.nodup.sublist (List.filter_sublist.map User.id)
  have hne : (db.sorted ilike login name).Pairwise fun u u' => u.id ≠ u'.id :=
    List.pairwise_map.mp hnodup
  exact hle.imp₂ (fun u u' hle hne => by omega) hne

theorem selectUsers_eq (h : sendable login ∧ sendable name) :
    db.selectUsers ilike login name = some ((db.sorted ilike login name).map db.row) := by
  have hsort : ((db.selected ilike login name).map db.row).mergeSort (fun r r' => r.id ≤ r'.id) =
      (db.sorted ilike login name).map db.row :=
    (List.map_mergeSort (r := fun u u' => decide (u.id ≤ u'.id)) (f := db.row)
      fun u _ u' _ => rfl).symm
  unfold selectUsers
  rw [if_pos h, rows_eq, List.filter_map]
  exact congrArg some hsort

/-- The row of a user can be read if its id fits and it has a profile. -/
theorem readable_row (u : User) : readable (db.row u) ↔ isInt32 u.id ∧ db.hasProfile u := by
  have hprofile : (db.profiles.rows.find? fun p => decide (p.user_id = u.id)).isSome = true ↔
      db.hasProfile u := by
    unfold hasProfile
    rw [List.find?_isSome, List.mem_map]
    exact exists_congr fun p => and_congr Iff.rfl decide_eq_true_iff
  show isInt32 u.id ∧ (Option.map _ _).isSome = true ∧ (Option.map _ _).isSome = true ↔ _
  rw [Option.isSome_map, Option.isSome_map, hprofile, and_self_iff]

end Db

/-! ## The answer -/

/-- `GET /users`. -/
def getRequest (login name : ByteString) : Request := ⟨.kGet, none, login, name⟩

/-- The listing answers with one item per selected user, in the order of the ids. -/
def Listed (ilike : String → String → Bool) (db : Db) (login name : ByteString) : Prop :=
  ∃ us : List User, us.Perm (db.selected ilike login name) ∧
    (us.Pairwise fun u u' => u.id < u'.id) ∧
    db.handle ilike (getRequest login name) [.ok] =
      some (db, .ok ⟨.kOk, .arr (us.map fun u => item (db.row u))⟩)

/-- The users of a listing can be read. -/
def Readable (ilike : String → String → Bool) (db : Db) (login name : ByteString) : Prop :=
  ∀ u ∈ db.selected ilike login name, isInt32 u.id ∧ db.hasProfile u

instance : Decidable (Readable ilike db login name) := inferInstanceAs (Decidable (∀ _ ∈ _, _))

/-- The rows of a listing can be read just if its users can. -/
theorem readable_sorted :
    (∀ row ∈ (db.sorted ilike login name).map db.row, readable row) ↔
      Readable ilike db login name := by
  rw [List.forall_mem_map]
  apply forall_congr'
  intro u
  rw [Db.sorted_perm.mem_iff, Db.readable_row]

/-- The listing as the program computes it: null when it is empty, and an error when an argument
cannot be sent or a row cannot be read. -/
theorem handle_getRequest (ilike : String → String → Bool) (db : Db) (login name : ByteString) :
    ∃ r, db.handle ilike (getRequest login name) [.ok] = some (db, r) ∧
      if (sendable login ∧ sendable name) ∧ Readable ilike db login name then
        r = .ok ⟨.kOk, arrayBody ((db.sorted ilike login name).map fun u => item (db.row u))⟩
      else ∃ e, r = .error e := by
  unfold Db.handle
  rw [handle_get rfl]
  -- an argument that PostgreSQL does not take fails the statement; a null name fails the reading
  by_cases hsend : sendable login ∧ sendable name
  · have hattempt : db.attempt ilike (.selectUsers login name) .ok =
        some (db, .ok ((db.sorted ilike login name).map db.row)) := by
      simp only [Db.attempt, Db.execute, Db.selectUsers_eq hsend]
    rcases items_eq ((db.sorted ilike login name).map db.row) with ⟨hall, heq⟩ | ⟨hnot, e, heq⟩
    · have hread : (sendable login ∧ sendable name) ∧ Readable ilike db login name :=
        ⟨hsend, readable_sorted.mp hall⟩
      simp only [if_pos hread]
      refine ⟨_, Prog.run_perform_bind.mpr ⟨.ok, [], db, _, rfl, hattempt, ?_⟩, rfl⟩
      show (items _ >>= fun arr => _).run (Db.attempt ilike) [] db = _
      rw [heq, List.map_map]
      rfl
    · have hread : ¬ ((sendable login ∧ sendable name) ∧ Readable ilike db login name) :=
        fun hread => hnot (readable_sorted.mpr hread.2)
      simp only [if_neg hread]
      refine ⟨_, Prog.run_perform_bind.mpr ⟨.ok, [], db, _, rfl, hattempt, ?_⟩, e, rfl⟩
      show (items _ >>= fun arr => _).run (Db.attempt ilike) [] db = _
      rw [heq]
      rfl
  · have hattempt : db.attempt ilike (.selectUsers login name) .ok =
        some (db, .error .sqlError) := by
      simp only [Db.attempt, Db.execute, Db.selectUsers, if_neg hsend]
    have hread : ¬ ((sendable login ∧ sendable name) ∧ Readable ilike db login name) :=
      fun hread => hsend hread.1
    simp only [if_neg hread]
    exact ⟨_, Prog.run_perform_bind.mpr ⟨.ok, [], db, _, rfl, hattempt, rfl, rfl⟩, _, rfl⟩

/-- The listing succeeds with an array just if its arguments can be sent and it has a user, all of
which can be read. -/
theorem listed_iff :
    Listed ilike db login name ↔
      (sendable login ∧ sendable name) ∧ (∃ u, u ∈ db.selected ilike login name) ∧
        Readable ilike db login name := by
  obtain ⟨r, hrun, hr⟩ := handle_getRequest ilike db login name
  have hmem : ∀ u, u ∈ db.sorted ilike login name ↔ u ∈ db.selected ilike login name :=
    fun u => Db.sorted_perm.mem_iff
  constructor
  · rintro ⟨us, -, -, hanswer⟩
    have hok : r = .ok ⟨.kOk, .arr (us.map fun u => item (db.row u))⟩ :=
      congrArg Prod.snd (Option.some.inj (hrun.symm.trans hanswer))
    rw [hok] at hr
    split_ifs at hr with hread
    · refine ⟨hread.1, ?_, hread.2⟩
      -- the answer is an array, so the listing is not empty
      have hne : db.sorted ilike login name ≠ [] := by
        intro hnil
        rw [hnil] at hr
        cases hr
      obtain ⟨u, hu⟩ := List.exists_mem_of_ne_nil _ hne
      exact ⟨u, (hmem u).mp hu⟩
    · obtain ⟨e, he⟩ := hr
      cases he
  · rintro ⟨hsend, ⟨u, hu⟩, hread⟩
    rw [if_pos ⟨hsend, hread⟩] at hr
    refine ⟨db.sorted ilike login name, Db.sorted_perm, Db.sorted_pairwise, ?_⟩
    have hne : (db.sorted ilike login name).map (fun u => item (db.row u)) ≠ [] :=
      List.ne_nil_of_mem (List.mem_map_of_mem ((hmem u).mpr hu))
    rw [hrun, hr]
    unfold arrayBody
    rw [if_neg hne]

/-! ## After a run -/

/-- **The listing.** In every database that requests lead to, the listing answers with exactly the
selected users just if its arguments can be sent, some user is selected, and all of them fit and
have a profile; and every user has a profile just if every request that added a user went on to add
its profile. -/
theorem users_listed_iff {requests : List (Request × List Outcome)}
    (hrun : Runs.exec (step ilike) Db.empty requests = some db) :
    (∀ login name, Listed ilike db login name ↔
      (sendable login ∧ sendable name) ∧ (∃ u, u ∈ db.selected ilike login name) ∧
        ∀ u ∈ db.selected ilike login name, isInt32 u.id ∧ db.hasProfile u) ∧
    ((∀ u ∈ db.users.rows, db.hasProfile u) ↔
      Runs.Meets (step ilike) KeepsProfiles Db.empty requests) := by
  refine ⟨fun login name => listed_iff, ?_⟩
  have hiff := Runs.exec_iff (I := fun db : Db => ∀ u ∈ ([] : List User), u ∈ db.users.rows)
    (P := fun db => ∀ u ∈ db.users.rows, u ∈ ([] : List User) ∨ db.hasProfile u)
    (fun db x db' hold hstep => step_hasProfile hold hstep) (fun u hu => nomatch hu) hrun
  have hnone : (∀ u ∈ db.users.rows, u ∈ ([] : List User) ∨ db.hasProfile u) ↔
      ∀ u ∈ db.users.rows, db.hasProfile u :=
    forall₂_congr fun u _ => or_iff_right List.not_mem_nil
  rw [← hnone, hiff]
  exact and_iff_right fun u hu => nomatch hu

/-! ## A listing that succeeds, and one that fails -/

def registerAlice : Request × List Outcome :=
  (postRequest "alice" "alice@example.com" "secret" "Alice" "A", [.ok, .ok])

def registerBob : Request × List Outcome :=
  (postRequest "bob" "bob@example.com" "secret" "" "B", [.ok, .ok])

/-- One user is registered with a name, and listed. -/
theorem users_listed_iff_named :
    ∃ db, Runs.exec (step contains) Db.empty [registerAlice] = some db ∧
      Listed contains db "" "" := by
  have hmap : (Runs.exec (step contains) Db.empty [registerAlice]).map
      (fun db => (db.users.rows, db.profiles.rows)) =
        some ([⟨1, "alice", "alice@example.com", "secret"⟩], [⟨1, "Alice", "A"⟩]) := by rfl
  obtain ⟨db, hrun, hrows⟩ := Option.map_eq_some_iff.mp hmap
  obtain ⟨husers, hprofiles⟩ := Prod.mk.inj hrows
  refine ⟨db, hrun, ((users_listed_iff hrun).1 "" "").mpr ⟨by decide, ?_, ?_⟩⟩
  · rw [Db.selected_empty, husers]
    exact ⟨_, List.mem_singleton_self _⟩
  · rw [Db.selected_empty, husers]
    intro u hu
    rw [List.mem_singleton.mp hu]
    unfold Db.hasProfile
    rw [hprofiles]
    decide

/-- A user is registered with an empty first name: the listing fails from then on. -/
theorem nameless_user_breaks_the_listing :
    ∃ db, Runs.exec (step contains) Db.empty [registerAlice, registerBob] = some db ∧
      (∃ e, db.handle contains (getRequest "" "") [.ok] = some (db, .error e)) ∧
      ¬ Listed contains db "" "" := by
  have hmap : (Runs.exec (step contains) Db.empty [registerAlice, registerBob]).map
      (fun db => (db.users.rows, db.profiles.rows)) =
        some ([⟨1, "alice", "alice@example.com", "secret"⟩, ⟨2, "bob", "bob@example.com", "secret"⟩],
          [⟨1, "Alice", "A"⟩]) := by rfl
  obtain ⟨db, hrun, hrows⟩ := Option.map_eq_some_iff.mp hmap
  obtain ⟨husers, hprofiles⟩ := Prod.mk.inj hrows
  have hbob : (⟨2, "bob", "bob@example.com", "secret"⟩ : User) ∈ db.selected contains "" "" := by
    rw [Db.selected_empty, husers]
    exact List.mem_cons_of_mem _ (List.mem_singleton_self _)
  have hunreadable : ¬ Readable contains db "" "" := by
    intro hread
    have hprofile := (hread _ hbob).2
    unfold Db.hasProfile at hprofile
    rw [hprofiles] at hprofile
    revert hprofile
    decide
  obtain ⟨r, hhandle, hr⟩ := handle_getRequest contains db "" ""
  rw [if_neg fun hread => hunreadable hread.2] at hr
  obtain ⟨e, rfl⟩ := hr
  exact ⟨db, hrun, ⟨e, hhandle⟩, fun hlisted => hunreadable (listed_iff.mp hlisted).2.2⟩

end SocialNetwork.UserService

import SocialNetwork.Platform.Database

/-!
# The statements of one request

Which statements a request to `user-service` and to `wall-service` executes, in which order and with
which arguments, and what it has reached when it is answered with 201.
-/

namespace SocialNetwork

open ChatService (CppError Response isInt32 arrayBody errorBody stoi)

/-! ## Registrations -/

namespace UserService

/-- How far a request has come. -/
inductive Phase
  | start
  /-- The user has been added, without a profile. -/
  | added (user_id : Int)
  | registered (user_id : Int)
  | failed
deriving DecidableEq

/-- The statements allowed in a phase. -/
def Phase.allows (request : Request) (g : Phase) : SqlCall → Prop
  | .insertUser username email password_hash =>
    g = start ∧ ∃ p, request.post? = some p ∧ username = p.login ∧ email = p.email ∧
      password_hash = p.password_hash
  | .insertProfile user_id first_name last_name =>
    g = added user_id ∧ ∃ p, request.post? = some p ∧ first_name = p.first_name ∧
      last_name = p.last_name
  | .selectUsers login name =>
    g = start ∧ request.method = .kGet ∧ login = request.login ∧ name = request.name

/-- The phase after a statement and its answer. -/
def Phase.after : (c : SqlCall) → Except CppError c.Answer → Phase
  | .insertUser _ _ _, .ok (user_id : Int) => added user_id
  | .insertProfile user_id _ _, .ok _ => registered user_id
  | .selectUsers _ _, .ok _ => start
  | _, .error _ => failed

def monitor (request : Request) : Prog.Monitor SqlCall SqlCall.Answer CppError Phase where
  ok := Phase.allows request
  next _ := Phase.after

/-- A request that is answered with 201 has added its user and the profile. -/
def Ended (request : Request) (r : Except CppError Response) (g : Phase) : Prop :=
  ∀ response, r = .ok response → response.status = .kCreated →
    ∃ p user_id, request.post? = some p ∧ g = .registered user_id ∧ response = created user_id p

theorem ended_error {request : Request} {e : CppError} {g : Phase} :
    Ended request (.error e) g := fun _ h => nomatch h

theorem registerUser_obeys {request : Request} {p : Registration} (hp : request.post? = some p) :
    Prog.Obeys (monitor request) (Ended request) .start (registerUser p) := by
  -- once the user has been added, the profile is added and the answer is 201
  have hadded : ∀ user_id, Prog.Obeys (monitor request) (Ended request) (Phase.added user_id)
      (asRowInt user_id >>= fun user_id => do
        Prog.perform (SqlCall.insertProfile user_id p.first_name p.last_name)
        pure (created user_id p)) := by
    intro user_id
    unfold asRowInt
    split_ifs
    · refine Prog.obeys_perform_bind.mpr ⟨⟨rfl, p, hp, rfl, rfl⟩, fun _ => ?_, fun _ => ended_error⟩
      intro response hr _
      exact ⟨p, user_id, hp, rfl, (Except.ok.inj hr).symm⟩
    · exact ended_error
  exact Prog.obeys_perform_bind.mpr ⟨⟨rfl, p, hp, rfl, rfl, rfl⟩, hadded, fun _ => ended_error⟩

/-- Encoding a result takes no statement. -/
theorem obeys_items {request : Request} {g : Phase} (rows : List Row) :
    Prog.Obeys (monitor request) (Ended request) g
      (items rows >>= fun arr => pure ⟨.kOk, arrayBody arr⟩) := by
  rcases items_eq rows with ⟨-, hitems⟩ | ⟨-, e, hitems⟩
  · rw [hitems]
    intro response hr hst
    rw [← Except.ok.inj hr] at hst
    cases hst
  · rw [hitems]
    exact ended_error

/-- **Protocol.** The handler keeps to the protocol of its request. -/
theorem handle_obeys (request : Request) :
    Prog.Obeys (monitor request) (Ended request) .start (HandleRequestThrow request) := by
  cases hp : request.post? with
  | some p =>
    rw [handle_post hp]
    exact registerUser_obeys hp
  | none =>
    by_cases hg : request.method = .kGet
    · rw [handle_get hg]
      exact Prog.obeys_perform_bind.mpr ⟨⟨rfl, hg, rfl, rfl⟩, obeys_items, fun _ => ended_error⟩
    · rcases handle_other hp hg with ⟨e, he⟩ | ⟨r, hr, hst⟩
      · rw [he]
        exact ended_error
      · rw [hr]
        intro response he hcreated
        exact absurd (Except.ok.inj he ▸ hcreated) hst

end UserService

/-! ## Posts -/

namespace WallService

/-- How far a request has come. -/
inductive Phase
  | start
  | stored (post_id : Int)
  | failed
deriving DecidableEq

/-- The statements allowed in a phase. -/
def Phase.allows (request : Request) (g : Phase) : SqlCall → Prop
  | .insertPost author_id content =>
    g = start ∧ ∃ p, request.post? = some p ∧ author_id = p.user_id ∧ content = p.content
  | .selectPostsOf author_id =>
    g = start ∧ request.method = .kGet ∧ request.user_id ≠ "" ∧ stoi request.user_id = .ok author_id
  | .selectPosts => g = start ∧ request.method = .kGet ∧ request.user_id = ""

/-- The phase after a statement and its answer. -/
def Phase.after : (c : SqlCall) → Except CppError c.Answer → Phase
  | .insertPost _ _, .ok (post_id : Int) => stored post_id
  | .selectPostsOf _, .ok _ => start
  | .selectPosts, .ok _ => start
  | _, .error _ => failed

def monitor (request : Request) : Prog.Monitor SqlCall SqlCall.Answer CppError Phase where
  ok g c := request.authorization = "Bearer 123" ∧ g.allows request c
  next _ := Phase.after

/-- A request that is answered with 201 has stored its post. -/
def Ended (request : Request) (r : Except CppError Response) (g : Phase) : Prop :=
  ∀ response, r = .ok response → response.status = .kCreated →
    ∃ p post_id, request.post? = some p ∧ g = .stored post_id ∧ response = created post_id p

theorem ended_error {request : Request} {e : CppError} {g : Phase} :
    Ended request (.error e) g := fun _ h => nomatch h

theorem createPost_obeys {request : Request} (hauth : request.authorization = "Bearer 123")
    {p : NewPost} (hp : request.post? = some p) :
    Prog.Obeys (monitor request) (Ended request) .start (createPost p) := by
  have hstored : ∀ post_id, Prog.Obeys (monitor request) (Ended request) (Phase.stored post_id)
      (asRowInt post_id >>= fun post_id => pure (created post_id p)) := by
    intro post_id
    rw [asRowInt_bind]
    split_ifs
    · intro response hr _
      exact ⟨p, post_id, hp, rfl, (Except.ok.inj hr).symm⟩
    · exact ended_error
  exact Prog.obeys_perform_bind.mpr ⟨⟨hauth, rfl, p, hp, rfl, rfl⟩, hstored, fun _ => ended_error⟩

/-- Encoding a result takes no statement. -/
theorem obeys_items {request : Request} {g : Phase} (rows : List Post) :
    Prog.Obeys (monitor request) (Ended request) g
      (items rows >>= fun arr => pure ⟨.kOk, arrayBody arr⟩) := by
  rw [items_eq]
  split_ifs
  · intro response hr hst
    rw [← Except.ok.inj hr] at hst
    cases hst
  · exact ended_error

/-- **Protocol.** The handler keeps to the protocol of its request. -/
theorem handle_obeys (request : Request) :
    Prog.Obeys (monitor request) (Ended request) .start (HandleRequestThrow request) := by
  have hrefused : ∀ (st : ChatService.HttpStatus) (text : String), st ≠ .kCreated →
      Ended request (.ok ⟨st, errorBody text⟩) .start := by
    intro st text hst response hr hcreated
    rw [← Except.ok.inj hr] at hcreated
    exact absurd hcreated hst
  unfold HandleRequestThrow
  split_ifs with hauth hpost hget huser
  · exact hrefused _ _ (by decide)
  · have hauth := not_not.mp hauth
    cases hparse : parsePost request.body with
    | error e => exact ended_error
    | ok p =>
      cases p with
      | none => exact hrefused _ _ (by decide)
      | some p =>
        refine createPost_obeys hauth ?_
        rw [Request.post?, if_pos ⟨hauth, hpost⟩, hparse]
  · cases hs : stoi request.user_id with
    | error e => exact ended_error
    | ok user_id =>
      exact Prog.obeys_perform_bind.mpr ⟨⟨not_not.mp hauth, rfl, hget, huser, hs⟩, obeys_items,
        fun _ => ended_error⟩
  · exact Prog.obeys_perform_bind.mpr ⟨⟨not_not.mp hauth, rfl, hget, not_not.mp huser⟩, obeys_items,
      fun _ => ended_error⟩
  · exact hrefused _ _ (by decide)

end WallService

end SocialNetwork

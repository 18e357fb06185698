import SocialNetwork.Lib.Fallible
import SocialNetwork.WallService.Posts
import SocialNetwork.UserService.Users

/-!
# The bodies of `POST` requests (`users.cpp`, `posts.cpp`, `messages.cpp`)

A body is well formed when it is an object with every required member of the required type. The
handlers look at it in three steps: they parse it, ask `HasMember` for each member, and read the
members. Only the second step answers 400, and only for an object or null; the other failures leave
the handler as exceptions.
-/

namespace SocialNetwork.Userver

open Text (ByteString)
open ChatService (CppError HttpStatus Response HasMember member asInt asInt64 asString isInt32 integral?)

/-! ## Well-formed bodies -/

/-- The type that a member is required to have. -/
inductive MemberType
  | string
  /-- A number that is an integer in the range of `int`. -/
  | int32
deriving DecidableEq, Repr

/-- The values that a member takes. -/
def MemberType.holds : MemberType → Json → Bool
  | string, .str _ => true
  | int32, .int n => isInt32 n
  | int32, .double bits => (integral? bits).any fun n => isInt32 n
  | _, _ => false

/-- An object with every required member of the required type. -/
def WellFormed (members : List (String × MemberType)) : Option Json → Prop
  | some (.obj fs) => ∀ x ∈ members, ∃ v, fs.lookup (.text x.1) = some v ∧ x.2.holds v = true
  | _ => False

/-- Null, or an object that lacks a required member. -/
def Lacks (members : List (String × MemberType)) : Option Json → Prop
  | some .null => True
  | some (.obj fs) => ∃ x ∈ members, fs.lookup (.text x.1) = none
  | _ => False

/-- A malformed body is answered with 400, without a statement and without an exception. -/
def RefusesMalformed {C : Type} {R : C → Type} (members : List (String × MemberType))
    (body : Option Json) (handler : Prog C R CppError Response) : Prop :=
  ¬ WellFormed members body → ∃ response, handler = .ret response ∧ response.status = .kBadRequest

/-! ## Reading members -/

theorem hasMember_obj (fs : List (ByteString × Json)) (f : String) :
    HasMember (.obj fs) f = .ok (fs.lookup (.text f)).isSome := rfl

/-- A text is read just if it is one. -/
theorem asString_ok_iff {v : Json} : (∃ s, asString v = .ok s) ↔ MemberType.string.holds v = true := by
  cases v with
  | str s => exact iff_of_true ⟨s, rfl⟩ rfl
  | _ => exact iff_of_false nofun nofun

/-- A 64-bit number in the range of an `int`. -/
theorem asInt_eq_ok {v : Json} {n : Int} :
    asInt v = .ok n ↔ asInt64 v = .ok n ∧ isInt32 n := by
  unfold asInt
  cases asInt64 v with
  | error e => exact iff_of_false nofun fun h => nomatch h.1
  | ok m =>
    show (if isInt32 m then pure m else throw CppError.outOfBounds : Except CppError Int) = .ok n ↔ _
    split_ifs with hm
    · constructor
      · intro h
        cases h
        exact ⟨rfl, hm⟩
      · exact And.left
    · refine iff_of_false nofun ?_
      rintro ⟨h, hn⟩
      cases h
      exact hm hn

/-- What `As<int64_t>()` reads is the number. -/
theorem asInt64_eq_ok {v : Json} {n : Int} (hn : isInt32 n) :
    asInt64 v = .ok n ↔ v = .int n ∨ ∃ bits, v = .double bits ∧ integral? bits = some n := by
  have h63 : -2 ^ 63 ≤ n ∧ n < 2 ^ 63 := by
    unfold isInt32 at hn
    omega
  have h53 : -2 ^ 53 < n ∧ n < 2 ^ 53 := by
    unfold isInt32 at hn
    omega
  constructor
  · intro h
    unfold asInt64 at h
    split at h
    · split_ifs at h
      cases h
      exact .inl rfl
    · next bits =>
      split at h
      · next m hm =>
        split_ifs at h
        cases h
        exact .inr ⟨bits, rfl, hm⟩
      · cases h
    · cases h
  · rintro (rfl | ⟨bits, rfl, hbits⟩)
    · exact if_pos h63
    · simp only [asInt64, hbits]
      exact if_pos h53

/-- An integer is read just if it is one, and in range. -/
theorem asInt_ok_iff {v : Json} : (∃ n, asInt v = .ok n) ↔ MemberType.int32.holds v = true := by
  constructor
  · rintro ⟨n, hn⟩
    obtain ⟨h64, h32⟩ := asInt_eq_ok.mp hn
    rcases (asInt64_eq_ok h32).mp h64 with rfl | ⟨bits, rfl, hbits⟩
    · exact decide_eq_true h32
    · show (integral? bits).any _ = true
      rw [hbits]
      exact decide_eq_true h32
  · intro h
    cases v with
    | int n =>
      have h32 : isInt32 n := of_decide_eq_true h
      exact ⟨n, asInt_eq_ok.mpr ⟨(asInt64_eq_ok h32).mpr (.inl rfl), h32⟩⟩
    | double bits =>
      obtain ⟨n, hbits, hn⟩ := (Option.any_eq_true _ _).mp h
      have h32 : isInt32 n := of_decide_eq_true hn
      exact ⟨n, asInt_eq_ok.mpr ⟨(asInt64_eq_ok h32).mpr (.inr ⟨bits, rfl, hbits⟩), h32⟩⟩
    | _ => cases h

/-! ## Parsing -/

/-- What the three handlers do with a body: they ask for the members in turn, then read them. -/
def parseBody {α : Type} (names : List String) (read : Json → Except CppError α) :
    Option Json → Except CppError (Option α)
  | none => .error .parseException
  | some json => do
    if ← names.allM (HasMember json) then
      let a ← read json
      return some a
    else return none

/-- Members that are asked for of an object. -/
theorem allM_hasMember_obj (fs : List (ByteString × Json)) (names : List String) :
    names.allM (HasMember (.obj fs)) = .ok (names.all fun f => (fs.lookup (.text f)).isSome) := by
  induction names with
  | nil => rfl
  | cons f names ih =>
    rw [List.allM, hasMember_obj, List.all_cons]
    cases (fs.lookup (.text f)).isSome with
    | true => exact ih
    | false => rfl

/-- **Refusals.** A body is refused by `HasMember` just if it is null or an object that lacks a
member. -/
theorem parseBody_eq_none {α : Type} {members : List (String × MemberType)}
    {read : Json → Except CppError α} (hne : members ≠ []) {body : Option Json} :
    parseBody (members.map Prod.fst) read body = .ok none ↔ Lacks members body := by
  cases body with
  | none => exact iff_of_false nofun id
  | some json =>
    obtain ⟨x, rest, rfl⟩ := List.exists_cons_of_ne_nil hne
    cases json with
    | null => exact iff_of_true rfl trivial
    | obj fs =>
      simp only [parseBody, allM_hasMember_obj]
      show (if ((x :: rest).map Prod.fst).all _ = true then _ else pure none) = Except.ok none ↔
        ∃ y ∈ x :: rest, fs.lookup (.text y.1) = none
      split_ifs with hall
      · refine iff_of_false ?_ ?_
        · cases read (.obj fs) with
          | error e => exact nofun
          | ok a => exact nofun
        · rintro ⟨y, hy, hnone⟩
          have hsome := List.all_eq_true.mp hall y.1 (List.mem_map_of_mem hy)
          rw [hnone] at hsome
          cases hsome
      · refine iff_of_true rfl ?_
        rw [Bool.not_eq_true, List.all_eq_false] at hall
        obtain ⟨f, hf, hnone⟩ := hall
        obtain ⟨y, hy, rfl⟩ := List.mem_map.mp hf
        exact ⟨y, hy, Option.not_isSome_iff_eq_none.mp hnone⟩
    | _ => exact iff_of_false nofun id

/-- A body that is read is an object. -/
theorem parseBody_eq_some {α : Type} {names : List String} {read : Json → Except CppError α}
    (hne : names ≠ []) {body : Option Json} {a : α} (h : parseBody names read body = .ok (some a)) :
    ∃ fs, body = some (.obj fs) ∧ read (.obj fs) = .ok a := by
  cases body with
  | none => cases h
  | some json =>
    obtain ⟨f, rest, rfl⟩ := List.exists_cons_of_ne_nil hne
    obtain ⟨b, hb, h⟩ := Fallible.exists_of_bind h
    cases b with
    | false => cases h
    | true =>
      obtain ⟨a', ha', h⟩ := Fallible.exists_of_bind h
      cases h
      cases json with
      | obj fs => exact ⟨fs, rfl, ha'⟩
      | _ => cases hb

/-- A member that is there is read as the value it has. -/
theorem member_obj {fs : List (ByteString × Json)} {f : String} {v : Json}
    (h : fs.lookup (.text f) = some v) : member (.obj fs) f = .ok v := by
  simp only [member, h]

/-- A member that is read is there and can be converted. -/
theorem exists_of_read {α β : Type} {fs : List (ByteString × Json)} {f : String}
    {convert : Json → Except CppError β} {k : β → Except CppError α} {a : α}
    (h : (do k (← convert (← member (.obj fs) f))) = .ok a) :
    ∃ v b, fs.lookup (.text f) = some v ∧ convert v = .ok b ∧ k b = .ok a := by
  obtain ⟨v, hv, h⟩ := Fallible.exists_of_bind h
  obtain ⟨b, hb, h⟩ := Fallible.exists_of_bind h
  cases hlookup : fs.lookup (.text f) with
  | none =>
    simp only [member, hlookup] at hv
    cases hv
  | some w =>
    rw [member_obj hlookup] at hv
    cases hv
    exact ⟨v, b, rfl, hb, h⟩

/-- A handler that refuses what `HasMember` refuses, raises what the reading raises, and goes on with
a statement. -/
structure Handles {C : Type} {R : C → Type} {α : Type} (members : List (String × MemberType))
    (parse : Option Json → Except CppError (Option α))
    (handler : Option Json → Prog C R CppError Response) : Prop where
  refuses : ∀ body, parse body = .ok none → ∃ response, handler body = .ret response ∧
    response.status = .kBadRequest
  raises : ∀ body e, parse body = .error e → handler body = .raise e
  missing : ∀ body, parse body = .ok none ↔ Lacks members body
  reads : ∀ body a, parse body = .ok (some a) → WellFormed members body

/-- A malformed body that lacks nothing ends with an exception. -/
theorem Handles.malformed_raises {C : Type} {R : C → Type} {α : Type}
    {members : List (String × MemberType)} {parse : Option Json → Except CppError (Option α)}
    {handler : Option Json → Prog C R CppError Response} (h : Handles members parse handler)
    {body : Option Json} (hmalformed : ¬ WellFormed members body) (hlacks : ¬ Lacks members body) :
    ∃ e, handler body = .raise e := by
  cases hparse : parse body with
  | error e => exact ⟨e, h.raises body e hparse⟩
  | ok result =>
    cases result with
    | none => exact absurd ((h.missing body).mp hparse) hlacks
    | some a => exact absurd (h.reads body a hparse) hmalformed

theorem Handles.refusesMalformed_iff {C : Type} {R : C → Type} {α : Type}
    {members : List (String × MemberType)} {parse : Option Json → Except CppError (Option α)}
    {handler : Option Json → Prog C R CppError Response} (h : Handles members parse handler)
    (body : Option Json) :
    RefusesMalformed members body (handler body) ↔ WellFormed members body ∨ Lacks members body := by
  unfold RefusesMalformed
  constructor
  · intro hclaim
    by_contra hneither
    rw [not_or] at hneither
    obtain ⟨response, hret, -⟩ := hclaim hneither.1
    obtain ⟨e, hraise⟩ := h.malformed_raises hneither.1 hneither.2
    rw [hraise] at hret
    cases hret
  · rintro (hwell | hlacks) hmalformed
    · exact absurd hwell hmalformed
    · exact h.refuses body ((h.missing body).mpr hlacks)

/-! ## The three handlers -/

/-- `POST /users`. -/
def usersPost (login name : ByteString) (body : Option Json) : UserService.Request :=
  ⟨.kPost, body, login, name⟩

/-- `POST /posts` with the accepted token. -/
def postsPost (user_id : ByteString) (body : Option Json) : WallService.Request :=
  ⟨.kPost, "Bearer 123", body, user_id⟩

/-- `POST /messages` with the accepted token. -/
def messagesPost (user_id : ByteString) (body : Option Json) : ChatService.Request :=
  ⟨.kPost, "Bearer 123", body, user_id⟩

/-- What `POST /users` reads. -/
def userMembers : List (String × MemberType) :=
  [("login", .string), ("email", .string), ("password", .string), ("first_name", .string),
    ("last_name", .string)]

def postMembers : List (String × MemberType) := [("user_id", .int32), ("content", .string)]

def messageMembers : List (String × MemberType) :=
  [("from", .int32), ("to", .int32), ("text", .string)]

/-- The last part of `parseRegistration`. -/
def readRegistration (json : Json) : Except CppError UserService.Registration := do
  let login ← asString (← member json "login")
  let email ← asString (← member json "email")
  let password_hash ← asString (← member json "password")
  let first_name ← asString (← member json "first_name")
  let last_name ← asString (← member json "last_name")
  return ⟨login, email, password_hash, first_name, last_name⟩

theorem parseRegistration_eq (body : Option Json) : UserService.parseRegistration body =
    parseBody (userMembers.map Prod.fst) readRegistration body := by
  cases body with
  | none => rfl
  | some json =>
    cases json with
    | obj fs =>
      simp only [UserService.parseRegistration, parseBody, allM_hasMember_obj, hasMember_obj,
        userMembers, List.map_cons, List.map_nil, List.all_cons, List.all_nil]
      -- the five tests of the handler one by one: the first that fails ends the chain
      cases (fs.lookup (.text "login")).isSome with
      | false => rfl
      | true =>
      cases (fs.lookup (.text "email")).isSome with
      | false => rfl
      | true =>
      cases (fs.lookup (.text "password")).isSome with
      | false => rfl
      | true =>
      cases (fs.lookup (.text "first_name")).isSome with
      | false => rfl
      | true =>
      cases (fs.lookup (.text "last_name")).isSome with
      | false => rfl
      | true =>
      simp only [readRegistration, bind_assoc, pure_bind]
      rfl
    | _ => rfl

/-- `POST /users` reads its body in this way. -/
theorem users_handles (login name : ByteString) : Handles userMembers UserService.parseRegistration
    fun body => UserService.HandleRequestThrow (usersPost login name body) where
  refuses body h := by
    refine ⟨⟨.kBadRequest, ChatService.errorBody
      "login, email, password, first_name, last_name are required"⟩, ?_, rfl⟩
    show (UserService.liftExcept (UserService.parseRegistration body) >>= _) = _
    rw [h]
    rfl
  raises body e h := by
    show (UserService.liftExcept (UserService.parseRegistration body) >>= _) = _
    rw [h]
    rfl
  missing body := by
    rw [parseRegistration_eq]
    exact parseBody_eq_none (by decide)
  reads body a h := by
    rw [parseRegistration_eq] at h
    obtain ⟨fs, rfl, hread⟩ := parseBody_eq_some (by decide) h
    obtain ⟨v₁, login, h₁, ht₁, hread⟩ := exists_of_read hread
    obtain ⟨v₂, email, h₂, ht₂, hread⟩ := exists_of_read hread
    obtain ⟨v₃, password_hash, h₃, ht₃, hread⟩ := exists_of_read hread
    obtain ⟨v₄, first_name, h₄, ht₄, hread⟩ := exists_of_read hread
    obtain ⟨v₅, last_name, h₅, ht₅, hread⟩ := exists_of_read hread
    simp only [WellFormed, userMembers, List.forall_mem_cons]
    refine ⟨⟨v₁, h₁, asString_ok_iff.mp ⟨login, ht₁⟩⟩, ⟨v₂, h₂, asString_ok_iff.mp ⟨email, ht₂⟩⟩,
      ⟨v₃, h₃, asString_ok_iff.mp ⟨password_hash, ht₃⟩⟩,
      ⟨v₄, h₄, asString_ok_iff.mp ⟨first_name, ht₄⟩⟩,
      ⟨v₅, h₅, asString_ok_iff.mp ⟨last_name, ht₅⟩⟩, nofun⟩

/-- The last part of `parsePost` of posts. -/
def readPost (json : Json) : Except CppError WallService.NewPost := do
  let user_id ← asInt (← member json "user_id")
  let content ← asString (← member json "content")
  return ⟨user_id, content⟩

theorem parsePost_eq (body : Option Json) : WallService.parsePost body =
    parseBody (postMembers.map Prod.fst) readPost body := by
  cases body with
  | none => rfl
  | some json =>
    cases json with
    | obj fs =>
      simp only [WallService.parsePost, parseBody, allM_hasMember_obj, hasMember_obj, postMembers,
        List.map_cons, List.map_nil, List.all_cons, List.all_nil]
      cases (fs.lookup (.text "user_id")).isSome with
      | false => rfl
      | true =>
      cases (fs.lookup (.text "content")).isSome with
      | false => rfl
      | true =>
      simp only [readPost, bind_assoc, pure_bind]
      rfl
    | _ => rfl

theorem posts_handles (user_id : ByteString) : Handles postMembers WallService.parsePost
    fun body => WallService.HandleRequestThrow (postsPost user_id body) where
  refuses body h := by
    refine ⟨⟨.kBadRequest, ChatService.errorBody "invalid data"⟩, ?_, rfl⟩
    show (WallService.liftExcept (WallService.parsePost body) >>= _) = _
    rw [h]
    rfl
  raises body e h := by
    show (WallService.liftExcept (WallService.parsePost body) >>= _) = _
    rw [h]
    rfl
  missing body := by
    rw [parsePost_eq]
    exact parseBody_eq_none (by decide)
  reads body a h := by
    rw [parsePost_eq] at h
    obtain ⟨fs, rfl, hread⟩ := parseBody_eq_some (by decide) h
    obtain ⟨v₁, author, h₁, ht₁, hread⟩ := exists_of_read hread
    obtain ⟨v₂, content, h₂, ht₂, hread⟩ := exists_of_read hread
    simp only [WellFormed, postMembers, List.forall_mem_cons]
    exact ⟨⟨v₁, h₁, asInt_ok_iff.mp ⟨author, ht₁⟩⟩, ⟨v₂, h₂, asString_ok_iff.mp ⟨content, ht₂⟩⟩, nofun⟩

/-- The last part of `parsePost` of messages. -/
def readMessage (json : Json) : Except CppError ChatService.Post := do
  let from_ ← asInt (← member json "from")
  let to_ ← asInt (← member json "to")
  let text ← asString (← member json "text")
  return ⟨from_, to_, text⟩

theorem parseMessage_eq (body : Option Json) : ChatService.parsePost body =
    parseBody (messageMembers.map Prod.fst) readMessage body := by
  cases body with
  | none => rfl
  | some json =>
    cases json with
    | obj fs =>
      simp only [ChatService.parsePost, parseBody, allM_hasMember_obj, hasMember_obj, messageMembers,
        List.map_cons, List.map_nil, List.all_cons, List.all_nil]
      cases (fs.lookup (.text "from")).isSome with
      | false => rfl
      | true =>
      cases (fs.lookup (.text "to")).isSome with
      | false => rfl
      | true =>
      cases (fs.lookup (.text "text")).isSome with
      | false => rfl
      | true =>
      simp only [readMessage, bind_assoc, pure_bind]
      rfl
    | _ => rfl

theorem messages_handles (user_id : ByteString) : Handles messageMembers ChatService.parsePost
    fun body => ChatService.HandleRequestThrow (messagesPost user_id body) where
  refuses body h := by
    refine ⟨⟨.kBadRequest, ChatService.errorBody "from, to, text are required"⟩, ?_, rfl⟩
    show (ChatService.liftExcept (ChatService.parsePost body) >>= _) = _
    rw [h]
    rfl
  raises body e h := by
    show (ChatService.liftExcept (ChatService.parsePost body) >>= _) = _
    rw [h]
    rfl
  missing body := by
    rw [parseMessage_eq]
    exact parseBody_eq_none (by decide)
  reads body a h := by
    rw [parseMessage_eq] at h
    obtain ⟨fs, rfl, hread⟩ := parseBody_eq_some (by decide) h
    obtain ⟨v₁, from_, h₁, ht₁, hread⟩ := exists_of_read hread
    obtain ⟨v₂, to_, h₂, ht₂, hread⟩ := exists_of_read hread
    obtain ⟨v₃, text, h₃, ht₃, hread⟩ := exists_of_read hread
    simp only [WellFormed, messageMembers, List.forall_mem_cons]
    exact ⟨⟨v₁, h₁, asInt_ok_iff.mp ⟨from_, ht₁⟩⟩, ⟨v₂, h₂, asInt_ok_iff.mp ⟨to_, ht₂⟩⟩,
      ⟨v₃, h₃, asString_ok_iff.mp ⟨text, ht₃⟩⟩, nofun⟩

/-- **Malformed bodies.** For every parser and every body, the three handlers refuse a malformed body
just if it parses to null or to an object that lacks a required member. -/
theorem malformed_refused_iff (FromString : List UInt8 → Option Json) (bytes : List UInt8)
    (login name user_id : ByteString) :
    (RefusesMalformed userMembers (FromString bytes)
        (UserService.HandleRequestThrow (usersPost login name (FromString bytes))) ↔
      WellFormed userMembers (FromString bytes) ∨ Lacks userMembers (FromString bytes)) ∧
    (RefusesMalformed postMembers (FromString bytes)
        (WallService.HandleRequestThrow (postsPost user_id (FromString bytes))) ↔
      WellFormed postMembers (FromString bytes) ∨ Lacks postMembers (FromString bytes)) ∧
    (RefusesMalformed messageMembers (FromString bytes)
        (ChatService.HandleRequestThrow (messagesPost user_id (FromString bytes))) ↔
      WellFormed messageMembers (FromString bytes) ∨ Lacks messageMembers (FromString bytes)) :=
  ⟨(users_handles login name).refusesMalformed_iff _, (posts_handles user_id).refusesMalformed_iff _,
    (messages_handles user_id).refusesMalformed_iff _⟩

/-- The bytes of `[` and of `[]`. -/
def openBracket : List UInt8 := [0x5B]

def brackets : List UInt8 := [0x5B, 0x5D]

/-- A parser that knows one JSON text. -/
def parseBrackets (bytes : List UInt8) : Option Json :=
  if bytes = brackets then some (.arr []) else none

theorem not_refusesMalformed {C : Type} {R : C → Type} {members : List (String × MemberType)}
    {body : Option Json} (h : ¬ WellFormed members body) (e : CppError) :
    ¬ RefusesMalformed members body (.raise e : Prog C R CppError Response) := by
  intro hrefuses
  obtain ⟨response, hret, -⟩ := hrefuses h
  cases hret

/-- All three handlers end with an exception on this body, and do not refuse it. -/
def RaisesEverywhere (body : Option Json) : Prop :=
  (∃ e, UserService.HandleRequestThrow (usersPost "" "" body) = .raise e ∧
    ¬ RefusesMalformed userMembers body (UserService.HandleRequestThrow (usersPost "" "" body))) ∧
  (∃ e, WallService.HandleRequestThrow (postsPost "" body) = .raise e ∧
    ¬ RefusesMalformed postMembers body (WallService.HandleRequestThrow (postsPost "" body))) ∧
  ∃ e, ChatService.HandleRequestThrow (messagesPost "" body) = .raise e ∧
    ¬ RefusesMalformed messageMembers body (ChatService.HandleRequestThrow (messagesPost "" body))

/-- The bodies `[` and `[]`: the first is no JSON, the second no object. -/
theorem malformed_raises_everywhere :
    RaisesEverywhere (parseBrackets openBracket) ∧ RaisesEverywhere (parseBrackets brackets) := by
  have hopen : parseBrackets openBracket = none := by decide
  have hboth : parseBrackets brackets = some (.arr []) := by decide
  rw [hopen, hboth]
  refine ⟨⟨?_, ?_, ?_⟩, ?_, ?_, ?_⟩
  -- `FromString` raises on the first body
  · exact ⟨.parseException, rfl, not_refusesMalformed id _⟩
  · exact ⟨.parseException, rfl, not_refusesMalformed id _⟩
  · exact ⟨.parseException, rfl, not_refusesMalformed id _⟩
  -- and `HasMember` on the second
  · exact ⟨.typeMismatch, rfl, not_refusesMalformed id _⟩
  · exact ⟨.typeMismatch, rfl, not_refusesMalformed id _⟩
  · exact ⟨.typeMismatch, rfl, not_refusesMalformed id _⟩

end SocialNetwork.Userver

import SocialNetwork.Lib.Text
import SocialNetwork.UserService.Users
import SocialNetwork.Userver.ArgumentTheorems
import SocialNetwork.Userver.QueryTheorems

/-!
# Queries of the services (`users.cpp`, `posts.cpp`, `messages.cpp`)

The listings take what they list from the query, as the bytes that `GetArg` gives; so a query made by
`MakeQuery` is answered for the arguments and the user it was made for (`asked_for`).
-/

namespace SocialNetwork.Userver

open Text (ByteString)
open ChatService (isInt32 stoi)

/-! ## Arguments -/

/-- The query of these arguments. -/
def queryOf (query_args : List (ByteString × ByteString)) : Bytes :=
  MakeQuery (query_args.map fun arg => (arg.1.bytes, arg.2.bytes))

/-- What a handler should hold for a name: the first value given, or nothing. -/
def argument (query_args : List (ByteString × ByteString)) (name : ByteString) : ByteString :=
  (query_args.lookup name).getD ""

theorem values_bytes (query_args : List (ByteString × ByteString)) (name : ByteString) :
    (RequestArgs.values (query_args.map fun arg => (arg.1.bytes, arg.2.bytes)) name.bytes).headD [] =
      (argument query_args name).bytes := by
  unfold argument
  induction query_args with
  | nil => rfl
  | cons arg query_args ih =>
    obtain ⟨key, value⟩ := arg
    rw [List.map_cons, RequestArgs.values_cons, List.lookup_cons]
    by_cases hname : name = key
    · subst hname
      rw [if_pos rfl, beq_self_eq_true]
      rfl
    · rw [if_neg fun h => hname (ByteString.bytes_injective h), ih, beq_false_of_ne hname]

/-- `GetArg` gives the bytes of the argument. -/
theorem GetArg_queryOf (query_args : List (ByteString × ByteString)) (body : Bytes)
    (compressed : Bool) :
    ∃ args, RequestText.parseArgs ⟨some (queryOf query_args), body, compressed, false⟩ = .ok args ∧
      ∀ name : ByteString, name ≠ "" → args.GetArg name.bytes = .ok (argument query_args name).bytes := by
  refine ⟨_, parseArgs_MakeQuery _ body compressed, ?_⟩
  intro name hname
  rw [RequestArgs.GetArg_eq, RequestArgs.GetArgVector_ofPairs,
    values_filter _ (ByteString.bytes_ne_nil hname), values_bytes]

/-! ## Numbers -/

theorem digits?_toDigits (n : Nat) : digits? (Nat.toDigits 10 n) = some n := by
  have hdigits : (Nat.toDigits 10 n).all Char.isDigit = true := by
    rw [List.all_eq_true]
    intro c hc
    exact Nat.isDigit_of_mem_toDigits (by decide) (by decide) hc
  have hvalue : digitsValue (Nat.toDigits 10 n) = n := Nat.ofDigitChars_ten_toDigits
  rw [digits?, if_pos ⟨Nat.toDigits_ne_nil, hdigits⟩, hvalue]

/-- A number written out is a literal of it. -/
theorem literal?_toString (n : Int) : literal? (toString n) = some n := by
  cases n with
  | ofNat n =>
    have hlist : (ByteString.text (toString (Int.ofNat n))).chars = Nat.toDigits 10 n := by
      show (toString n).toList = _
      rw [Nat.toString_eq_repr, Nat.repr_eq_ofList_toDigits, String.toList_ofList]
    -- a number that is not negative begins with a digit
    have hminus : ∀ ds, Nat.toDigits 10 n ≠ '-' :: ds := by
      intro ds heq
      have hdigit : ('-').isDigit = true :=
        Nat.isDigit_of_mem_toDigits (by decide) (by decide) (heq ▸ List.mem_cons_self)
      cases hdigit
    unfold literal?
    rw [hlist]
    split
    · next ds hds => exact absurd hds (hminus ds)
    · rw [digits?_toDigits]
      rfl
  | negSucc m =>
    have hlist : (ByteString.text (toString (Int.negSucc m))).chars =
        '-' :: Nat.toDigits 10 (m + 1) := by
      show (toString (Int.negSucc m)).toList = _
      rw [Text.toString_negSucc, String.toList_append, Nat.toString_eq_repr,
        Nat.repr_eq_ofList_toDigits]
      show ['-'] ++ _ = _
      rw [String.toList_ofList, List.singleton_append]
    unfold literal?
    rw [hlist]
    show (digits? (Nat.toDigits 10 (m + 1))).map _ = _
    rw [digits?_toDigits]
    rfl

/-- `std::stoi` undoes `std::to_string`. -/
theorem stoi_toString {n : Int} (hn : isInt32 n) : stoi (toString n) = .ok n := by
  rw [stoi_of_literal (literal?_toString n), if_pos hn]

theorem toString_ne_empty (n : Int) : toString n ≠ "" := by
  intro hempty
  have hliteral := literal?_toString n
  rw [hempty] at hliteral
  cases hliteral

/-! ## The listings -/

/-- A `GET` of the users. -/
def usersRequest (body : Option Json) (login name : ByteString) : UserService.Request :=
  ⟨.kGet, body, login, name⟩

/-- The name of an argument. -/
def key (name : String) : Bytes := (name : ByteString).bytes

/-- What the handlers do with the arguments they are given. -/
def Listed (args : RequestArgs) (login name : ByteString) (n : Int) : Prop :=
  (∀ json login' name', args.GetArg (key "login") = .ok login' →
    args.GetArg (key "name") = .ok name' →
      UserService.HandleRequestThrow (usersRequest json (.ofBytes login') (.ofBytes name')) =
        UserService.listUsers login name) ∧
  ∀ json user_id, args.GetArg (key "user_id") = .ok user_id →
    WallService.HandleRequestThrow (postsRequest json (.ofBytes user_id)) =
        WallService.listPostsOf n ∧
      ChatService.HandleRequestThrow (messagesRequest json (.ofBytes user_id)) =
        ChatService.getMessages n

/-- **Queries.** A URL whose query `MakeQuery` made is answered for the login and the name in it, and
for the user whose id is written out in it, whatever else it holds. -/
theorem asked_for (query_args : List (ByteString × ByteString)) (body : Bytes) (compressed : Bool)
    {n : Int} (hn : isInt32 n) (hid : query_args.lookup (.text "user_id") = some (toString n)) :
    ∃ args, RequestText.parseArgs ⟨some (queryOf query_args), body, compressed, false⟩ = .ok args ∧
      (∀ name : ByteString, name ≠ "" → args.GetArg name.bytes = .ok (argument query_args name).bytes) ∧
      Listed args (argument query_args "login") (argument query_args "name") n := by
  obtain ⟨args, hparse, hargs⟩ := GetArg_queryOf query_args body compressed
  -- a handler holds the argument itself
  have hvalue : ∀ (name : String) value, (name : ByteString) ≠ "" → args.GetArg (key name) = .ok value →
      ByteString.ofBytes value = argument query_args name := by
    intro name value hname h
    rw [key, hargs name hname] at h
    rw [← Except.ok.inj h, ByteString.ofBytes_bytes]
  refine ⟨args, hparse, hargs, ?_, ?_⟩
  · intro json login' name' hlogin hname
    rw [hvalue _ _ (by decide) hlogin, hvalue _ _ (by decide) hname]
    rfl
  · intro json user_id huser
    have hn' : ByteString.ofBytes user_id = toString n := by
      rw [hvalue _ _ (by decide) huser, argument, hid]
      rfl
    rw [hn']
    have hread : stoi (toString n) = .ok n := stoi_toString hn
    have hne : (toString n : ByteString) ≠ "" :=
      fun hempty => toString_ne_empty n (ByteString.text.inj hempty)
    constructor
    · rw [WallService.handle_get rfl rfl]
      show (if (toString n : ByteString) ≠ "" then
        WallService.liftExcept (stoi (toString n)) >>= WallService.listPostsOf
        else WallService.listPosts) = _
      rw [if_pos hne, hread]
      rfl
    · show (if (toString n : ByteString) = "" then _
        else ChatService.liftExcept (stoi (toString n)) >>= ChatService.getMessages) = _
      rw [if_neg hne, hread]
      rfl

/-- The query of user -7, with an ampersand in another argument. -/
theorem asked_for_seven :
    ∃ args, RequestText.parseArgs
        ⟨some (queryOf [("name", "a&b=c"), ("user_id", "-7")]), [], false, false⟩ = .ok args ∧
      (∀ name : ByteString, name ≠ "" → args.GetArg name.bytes =
        .ok (argument [("name", "a&b=c"), ("user_id", "-7")] name).bytes) ∧
      Listed args "" "a&b=c" (-7) :=
  asked_for [("name", "a&b=c"), ("user_id", "-7")] [] false (by decide) (by decide)

end SocialNetwork.Userver

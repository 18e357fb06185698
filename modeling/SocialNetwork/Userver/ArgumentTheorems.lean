import Mathlib.Data.List.TakeWhile
import SocialNetwork.WallService.Posts

/-!
# The argument `user_id` (`posts.cpp`, `messages.cpp`)

Both handlers read the argument with `std::stoi`, which skips blanks, takes a sign and ignores what
follows the digits. `literal32?` is what the argument should be: an integer literal within the range
of `int`, and nothing else. On literals the two agree (`stoi_of_literal`); everything else is either
taken for an integer or ends with an exception.
-/

namespace SocialNetwork.Userver

open Text (ByteString)
open ChatService (CppError HttpStatus Response isInt32 isSpace stoi)

/-! ## Literals -/

/-- The number that decimal digits write. -/
def digitsValue (ds : List Char) : Nat := ds.foldl (fun n c => 10 * n + (c.toNat - '0'.toNat)) 0

/-- Decimal digits, at least one of them. -/
def digits? (ds : List Char) : Option Nat :=
  if ds ≠ [] ∧ ds.all Char.isDigit = true then some (digitsValue ds) else none

/-- A decimal integer literal: an optional minus sign, and digits. -/
def literal? (s : ByteString) : Option Int :=
  match s.chars with
  | '-' :: ds => (digits? ds).map fun (n : Nat) => -(n : Int)
  | ds => (digits? ds).map fun (n : Nat) => (n : Int)

/-- A literal in the range of `int`. -/
def literal32? (s : ByteString) : Option Int := (literal? s).filter fun n => isInt32 n

example : literal32? "-2147483648" = some (-2147483648) := by decide
example : literal32? "2147483648" = none := by decide

/-! ## What `std::stoi` makes of a literal -/

theorem digits?_eq_some {ds : List Char} {n : Nat} (h : digits? ds = some n) :
    ds ≠ [] ∧ (∀ c ∈ ds, c.isDigit = true) ∧ n = digitsValue ds := by
  unfold digits? at h
  split_ifs at h with hds
  exact ⟨hds.1, List.all_eq_true.mp hds.2, (Option.some.inj h).symm⟩

/-- A digit is not skipped, and is no sign. -/
theorem not_isSpace_of_isDigit {c : Char} (h : c.isDigit = true) :
    isSpace c = false ∧ c ≠ '-' ∧ c ≠ '+' := by
  have hbounds : 48 ≤ c.toNat ∧ c.toNat ≤ 57 := by
    simp only [Char.isDigit, Bool.and_eq_true, decide_eq_true_eq] at h
    exact h
  refine ⟨?_, ?_, ?_⟩
  · unfold isSpace
    have hblank : c ≠ ' ' := by
      rintro rfl
      revert hbounds
      decide
    have hcontrol : ¬ c ≤ '\r' := by
      intro hle
      have hle' : c.toNat ≤ 13 := hle
      omega
    simp [hblank, hcontrol]
  · rintro rfl
    revert hbounds
    decide
  · rintro rfl
    revert hbounds
    decide

/-- Digits after a sign, or without one. -/
theorem stoi_eq {s : ByteString} {cs ds : List Char} (sign : Int) (hs : s.chars = cs)
    (hdrop : cs.dropWhile isSpace = cs) (hsign : (if cs.head? = some '-' then -1 else 1) = sign)
    (htail : (if cs.head? = some '-' ∨ cs.head? = some '+' then cs.tail else cs) = ds)
    (hne : ds ≠ []) (hall : ∀ c ∈ ds, c.isDigit = true) :
    stoi s =
      if isInt32 (sign * (digitsValue ds : Int)) then .ok (sign * (digitsValue ds : Int))
      else .error .outOfRange := by
  have htake : ds.takeWhile Char.isDigit = ds := List.takeWhile_eq_self_iff.mpr hall
  subst hs hsign
  unfold stoi
  simp only [hdrop, htail, htake, if_neg hne]
  rfl

/-- **Literals.** `std::stoi` reads a literal as the integer it writes, or finds it out of range. -/
theorem stoi_of_literal {s : ByteString} {n : Int} (h : literal? s = some n) :
    stoi s = if isInt32 n then .ok n else .error .outOfRange := by
  unfold literal? at h
  split at h
  · next ds hs =>
    obtain ⟨m, hm, rfl⟩ := Option.map_eq_some_iff.mp h
    obtain ⟨hne, hall, rfl⟩ := digits?_eq_some hm
    have hvalue : (-1 : Int) * (digitsValue ds : Int) = -(digitsValue ds : Int) := by omega
    have hstoi : stoi s = if isInt32 (-1 * (digitsValue ds : Int)) then
        .ok (-1 * (digitsValue ds : Int)) else .error .outOfRange :=
      stoi_eq (-1) hs rfl rfl rfl hne hall
    rw [hstoi, hvalue]
  · next ds hminus =>
    obtain ⟨m, hm, rfl⟩ := Option.map_eq_some_iff.mp h
    obtain ⟨hne, hall, rfl⟩ := digits?_eq_some hm
    -- the first character is a digit, so nothing is skipped and there is no sign
    obtain ⟨c, cs, hcs⟩ := List.exists_cons_of_ne_nil hne
    obtain ⟨hspace, hnotMinus, hnotPlus⟩ :=
      not_isSpace_of_isDigit (hall c (by rw [hcs]; exact List.mem_cons_self))
    have hdrop : s.chars.dropWhile isSpace = s.chars := by
      rw [hcs, List.dropWhile_cons_of_neg (by rw [hspace]; decide)]
    have hhead : s.chars.head? = some c := by
      rw [hcs]
      rfl
    have hsign : (if s.chars.head? = some '-' then -1 else 1) = (1 : Int) := by
      rw [hhead, if_neg fun heq => hnotMinus (Option.some.inj heq)]
    have htail : (if s.chars.head? = some '-' ∨ s.chars.head? = some '+' then s.chars.tail
        else s.chars) = s.chars := by
      rw [hhead, if_neg]
      rintro (heq | heq)
      · exact hnotMinus (Option.some.inj heq)
      · exact hnotPlus (Option.some.inj heq)
    rw [stoi_eq 1 rfl hdrop hsign htail hne hall, Int.one_mul]

/-! ## The two handlers -/

/-- A `GET` of the posts of a user, with the accepted token. -/
def postsRequest (body : Option Json) (user_id : ByteString) : WallService.Request :=
  ⟨.kGet, "Bearer 123", body, user_id⟩

/-- A `GET` of the messages of a user, with the accepted token. -/
def messagesRequest (body : Option Json) (user_id : ByteString) : ChatService.Request :=
  ⟨.kGet, "Bearer 123", body, user_id⟩

/-- A literal is queried for, and anything else is answered with 400, without a query. -/
def ParsedExactly {C : Type} {R : C → Type} (s : ByteString) (query : Int → Prog C R CppError Response)
    (handler : Prog C R CppError Response) : Prop :=
  match literal32? s with
  | some n => handler = query n
  | none => ∃ response, handler = .ret response ∧ response.status = .kBadRequest

/-- A handler that queries for what `std::stoi` reads. -/
theorem parsedExactly_iff {C : Type} {R : C → Type} {s : ByteString}
    {query : Int → Prog C R CppError Response} {handler : Prog C R CppError Response}
    (hok : ∀ n, stoi s = .ok n → handler = query n) (herror : ∀ e, stoi s = .error e → handler = .raise e)
    (hquery : ∀ n response, query n ≠ .ret response) :
    ParsedExactly s query handler ↔ (literal32? s).isSome = true := by
  unfold ParsedExactly
  cases hs : literal32? s with
  | some n =>
    refine iff_of_true (hok n ?_) rfl
    obtain ⟨hliteral, hrange⟩ := Option.filter_eq_some_iff.mp hs
    rw [stoi_of_literal hliteral, if_pos (of_decide_eq_true hrange)]
  | none =>
    -- the handler queries or raises, and never answers 400
    refine iff_of_false ?_ nofun
    rintro ⟨response, hret, -⟩
    cases hstoi : stoi s with
    | ok n =>
      rw [hok n hstoi] at hret
      exact hquery n response hret
    | error e =>
      rw [herror e hstoi] at hret
      cases hret

/-- **The argument.** It is parsed exactly just if it is a decimal integer literal in the range of
`int`; any other argument is never answered with 400. -/
theorem user_id_parsed_iff {s : ByteString} (hs : s ≠ "") (body : Option Json) :
    (ParsedExactly s WallService.listPostsOf (WallService.HandleRequestThrow (postsRequest body s)) ↔
      (literal32? s).isSome = true) ∧
    (ParsedExactly s ChatService.getMessages
        (ChatService.HandleRequestThrow (messagesRequest body s)) ↔
      (literal32? s).isSome = true) := by
  constructor
  · have hhandle : WallService.HandleRequestThrow (postsRequest body s) =
        WallService.liftExcept (stoi s) >>= WallService.listPostsOf := by
      rw [WallService.handle_get rfl rfl]
      exact if_pos hs
    apply parsedExactly_iff
    · intro n hn
      rw [hhandle, hn]
      rfl
    · intro e he
      rw [hhandle, he]
      rfl
    · exact fun n response => nofun
  · have hhandle : ChatService.HandleRequestThrow (messagesRequest body s) =
        ChatService.liftExcept (stoi s) >>= ChatService.getMessages := by
      show (if s = "" then _ else _) = _
      rw [if_neg hs]
      rfl
    apply parsedExactly_iff
    · intro n hn
      rw [hhandle, hn]
      rfl
    · intro e he
      rw [hhandle, he]
      rfl
    · exact fun n response => nofun

/-- The argument "7" is queried for. -/
theorem user_id_parsed_iff_seven :
    ParsedExactly "7" WallService.listPostsOf
        (WallService.HandleRequestThrow (postsRequest none "7")) ∧
      ParsedExactly "7" ChatService.getMessages
        (ChatService.HandleRequestThrow (messagesRequest none "7")) :=
  ⟨(user_id_parsed_iff (by decide) none).1.mpr (by decide),
    (user_id_parsed_iff (by decide) none).2.mpr (by decide)⟩

/-- The argument "12abc" is no integer, and both handlers return what is of user 12; the argument
"abc" ends both with an exception. -/
theorem garbage_is_accepted :
    literal32? "12abc" = none ∧
      WallService.HandleRequestThrow (postsRequest none "12abc") = WallService.listPostsOf 12 ∧
      ¬ ParsedExactly "12abc" WallService.listPostsOf
        (WallService.HandleRequestThrow (postsRequest none "12abc")) ∧
      ChatService.HandleRequestThrow (messagesRequest none "12abc") = ChatService.getMessages 12 ∧
      ¬ ParsedExactly "12abc" ChatService.getMessages
        (ChatService.HandleRequestThrow (messagesRequest none "12abc")) ∧
      WallService.HandleRequestThrow (postsRequest none "abc") = .raise .invalidArgument ∧
      ChatService.HandleRequestThrow (messagesRequest none "abc") = .raise .invalidArgument := by
  have hnone : literal32? "12abc" = none := by decide
  have hposts : WallService.HandleRequestThrow (postsRequest none "12abc") =
      WallService.listPostsOf 12 := by rfl
  have hmessages : ChatService.HandleRequestThrow (messagesRequest none "12abc") =
      ChatService.getMessages 12 := by rfl
  refine ⟨hnone, hposts, ?_, hmessages, ?_, by rfl, by rfl⟩
  · rw [ParsedExactly, hnone, hposts]
    rintro ⟨response, hret, -⟩
    cases hret
  · rw [ParsedExactly, hnone, hmessages]
    rintro ⟨response, hret, -⟩
    cases hret

end SocialNetwork.Userver

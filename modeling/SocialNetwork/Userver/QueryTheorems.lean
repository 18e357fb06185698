import SocialNetwork.Lib.Codes
import SocialNetwork.Userver.Query

/-!
# What is read of a query string

`PercentCode` says which bytes stand for a byte of an argument. `UrlDecode` reads its texts and no
others (`UrlDecode_eq_ok_iff`), and `UrlEncode` writes such texts. The loop of `ParseAndConsumeArgs`
goes through the fields of the query (`ParseAndConsumeArgs_eq`), so that the arguments of a URL made
by `MakeQuery` are the ones a handler gets.
-/

namespace SocialNetwork.Userver

open Codes

/-! ## Digits -/

/-- What holds of the 256 bytes holds of every byte. -/
theorem forall_byte {P : UInt8 → Prop} (h : ∀ n < 256, P (UInt8.ofNat n)) (b : UInt8) : P b := by
  have hb := h b.toNat b.toNat_lt
  rwa [UInt8.ofNat_toNat] at hb

/-- The value of a hexadecimal digit, in either case. -/
def xdigit? (c : UInt8) : Option Nat :=
  if 48 ≤ c.toNat ∧ c.toNat ≤ 57 then some (c.toNat - 48)
  else if 65 ≤ c.toNat ∧ c.toNat ≤ 70 then some (c.toNat - 55)
  else if 97 ≤ c.toNat ∧ c.toNat ≤ 102 then some (c.toNat - 87)
  else none

/-- Both look at the same digits. -/
theorem IsXDigit_eq (c : UInt8) : IsXDigit c = (xdigit? c).isSome :=
  forall_byte (P := fun c => IsXDigit c = (xdigit? c).isSome) (by decide +kernel) c

theorem xdigit?_lt {c : UInt8} {x : Nat} (h : xdigit? c = some x) : x < 16 := by
  unfold xdigit? at h
  split_ifs at h <;> cases h <;> omega

/-- Both decoders take a digit for its value. -/
theorem digit_values {c : UInt8} {x : Nat} (h : xdigit? c = some x) :
    GetXDigitValue c = UInt8.ofNat x ∧ lenientDigit c = (x : Int) := by
  revert h
  refine forall_byte (P := fun c => xdigit? c = some x →
    GetXDigitValue c = UInt8.ofNat x ∧ lenientDigit c = (x : Int)) ?_ c
  intro n hn h
  have hall : ∀ n < 256, ∀ x ∈ xdigit? (UInt8.ofNat n),
      GetXDigitValue (UInt8.ofNat n) = UInt8.ofNat x ∧ lenientDigit (UInt8.ofNat n) = (x : Int) := by
    decide +kernel
  exact hall n hn x h

/-- Two digits make a byte. -/
theorem shiftLeft_or {x y : Nat} (hx : x < 16) (hy : y < 16) :
    UInt8.ofNat x <<< 4 ||| UInt8.ofNat y = UInt8.ofNat (16 * x + y) := by
  have hall : ∀ x < 16, ∀ y < 16,
      UInt8.ofNat x <<< 4 ||| UInt8.ofNat y = UInt8.ofNat (16 * x + y) := by decide +kernel
  exact hall x hx y hy

/-- `FromHex` of two characters. -/
theorem FromHex_pair (first second : UInt8) (res : Bytes) :
    FromHex [first, second] res =
      if IsXDigit first = true ∧ IsXDigit second = true then
        (2, res ++ [GetXDigitValue first <<< 4 ||| GetXDigitValue second])
      else (0, res) := by
  simp only [FromHex]

/-! ## The code -/

/-- The bytes that stand for a byte: itself, a plus for a blank, and an escape for any. -/
inductive PercentCode : UInt8 → Bytes → Prop
  | plain {b : UInt8} : b ≠ ascii '%' → b ≠ ascii '+' → PercentCode b [b]
  | plus : PercentCode (ascii ' ') [ascii '+']
  | escape {first second : UInt8} {x y : Nat} : xdigit? first = some x → xdigit? second = some y →
      PercentCode (UInt8.ofNat (16 * x + y)) [ascii '%', first, second]

theorem percent_ne_plus : ascii '%' ≠ ascii '+' := by decide

/-- A word tells by its first byte how long it is. -/
theorem isPrefix_percentCode : IsPrefix PercentCode where
  ne_nil := by
    intro a word h
    cases h <;> exact List.cons_ne_nil _ _
  cancel := by
    intro a a' word word' text text' h h' heq
    cases h with
    | plain hpercent hplus =>
      cases h' with
      | plain _ _ => exact ⟨(List.cons.inj heq).1, (List.cons.inj heq).2⟩
      | plus => exact absurd (List.cons.inj heq).1 hplus
      | escape _ _ => exact absurd (List.cons.inj heq).1 hpercent
    | plus =>
      cases h' with
      | plain _ hplus => exact absurd (List.cons.inj heq).1.symm hplus
      | plus => exact ⟨rfl, (List.cons.inj heq).2⟩
      | escape _ _ => exact absurd (List.cons.inj heq).1.symm percent_ne_plus
    -- the two digits give the byte back
    | escape hx hy =>
      cases h' with
      | plain hpercent _ => exact absurd (List.cons.inj heq).1.symm hpercent
      | plus => exact absurd (List.cons.inj heq).1 percent_ne_plus
      | escape hx' hy' =>
        simp only [List.cons_append, List.nil_append, List.cons.injEq, true_and] at heq
        rw [heq.1, hx'] at hx
        rw [heq.2.1, hy'] at hy
        rw [Option.some.inj hx, Option.some.inj hy]
        exact ⟨rfl, heq.2.2⟩

/-- An escape without two digits is no word. -/
theorem not_begins_of_short {ptr : Bytes} (h : ∀ first second rest, ptr ≠ first :: second :: rest) :
    ¬ Begins PercentCode (ascii '%' :: ptr) := by
  rintro ⟨a, word, rest, hword, heq⟩
  cases hword with
  | plain hpercent _ => exact absurd (List.cons.inj heq).1.symm hpercent
  | plus => exact absurd (List.cons.inj heq).1 percent_ne_plus
  | escape _ _ => exact h _ _ _ (List.cons.inj heq).2

/-- An escape needs two digits. -/
theorem not_begins_of_not_digits {first second : UInt8} {ptr : Bytes}
    (h : ¬ (IsXDigit first = true ∧ IsXDigit second = true)) :
    ¬ Begins PercentCode (ascii '%' :: first :: second :: ptr) := by
  rintro ⟨a, word, rest, hword, heq⟩
  cases hword with
  | plain hpercent _ => exact absurd (List.cons.inj heq).1.symm hpercent
  | plus => exact absurd (List.cons.inj heq).1 percent_ne_plus
  | escape hx hy =>
    simp only [List.cons_append, List.nil_append, List.cons.injEq, true_and] at heq
    apply h
    rw [heq.1, heq.2.1, IsXDigit_eq, IsXDigit_eq, hx, hy]
    exact ⟨rfl, rfl⟩

/-! ## Decoding -/

/-- A text without `%` and `+` stands for itself. -/
theorem reads_plain {url : Bytes} (h : ascii '%' ∉ url ∧ ascii '+' ∉ url) :
    Reads PercentCode url url := by
  induction url with
  | nil => exact .nil
  | cons b url ih =>
    have hpercent : b ≠ ascii '%' := fun heq => h.1 (heq ▸ List.mem_cons_self)
    have hplus : b ≠ ascii '+' := fun heq => h.2 (heq ▸ List.mem_cons_self)
    have hrest := ih ⟨fun hmem => h.1 (List.mem_cons_of_mem _ hmem),
      fun hmem => h.2 (List.mem_cons_of_mem _ hmem)⟩
    exact .cons (.plain hpercent hplus) hrest

/-- Other bytes stand for themselves. -/
theorem decodeFrom_plain (url ptr res : Bytes) {c : UInt8} (hpercent : c ≠ ascii '%')
    (hplus : c ≠ ascii '+') : decodeFrom url (c :: ptr) res = decodeFrom url ptr (res ++ [c]) := by
  rw [decodeFrom.eq_def]
  simp only [if_neg hpercent, if_neg hplus]

theorem decodeFrom_plus (url ptr res : Bytes) :
    decodeFrom url (ascii '+' :: ptr) res = decodeFrom url ptr (res ++ [ascii ' ']) := by
  rw [decodeFrom.eq_def]
  simp only [if_neg percent_ne_plus.symm, if_true]

/-- Two digits are the byte that they make. -/
theorem decodeFrom_escape (url ptr res : Bytes) {first second : UInt8} {x y : Nat}
    (hx : xdigit? first = some x) (hy : xdigit? second = some y) :
    decodeFrom url (ascii '%' :: first :: second :: ptr) res =
      decodeFrom url ptr (res ++ [UInt8.ofNat (16 * x + y)]) := by
  have hdigits : IsXDigit first = true ∧ IsXDigit second = true := by
    rw [IsXDigit_eq, IsXDigit_eq, hx, hy]
    exact ⟨rfl, rfl⟩
  have hbyte : GetXDigitValue first <<< 4 ||| GetXDigitValue second = UInt8.ofNat (16 * x + y) := by
    rw [(digit_values hx).1, (digit_values hy).1, shiftLeft_or (xdigit?_lt hx) (xdigit?_lt hy)]
  rw [decodeFrom, if_pos rfl]
  simp only [FromHex_pair, if_pos hdigits, hbyte, if_true]

/-- The loop appends what it reads, or throws at the sequence it cannot read. -/
theorem decodeFrom_spec (url ptr res : Bytes) :
    (∃ s, Reads PercentCode ptr s ∧ decodeFrom url ptr res = .ok (res ++ s)) ∨
      ∃ rest, StuckAt PercentCode ptr rest ∧
        decodeFrom url ptr res = .error (invalidSequence url rest) := by
  -- A word is read by one turn of the loop; what is left is read by the turns after it.
  have hturn : ∀ {a : UInt8} {word rest : Bytes} (res : Bytes), PercentCode a word →
      decodeFrom url (word ++ rest) res = decodeFrom url rest (res ++ [a]) →
      ((∃ s, Reads PercentCode rest s ∧ decodeFrom url rest (res ++ [a]) = .ok (res ++ [a] ++ s)) ∨
        ∃ stuck, StuckAt PercentCode rest stuck ∧
          decodeFrom url rest (res ++ [a]) = .error (invalidSequence url stuck)) →
      (∃ s, Reads PercentCode (word ++ rest) s ∧
          decodeFrom url (word ++ rest) res = .ok (res ++ s)) ∨
        ∃ stuck, StuckAt PercentCode (word ++ rest) stuck ∧
          decodeFrom url (word ++ rest) res = .error (invalidSequence url stuck) := by
    intro a word rest res hword heq h
    rcases h with ⟨s, hreads, hok⟩ | ⟨stuck, hstuck, herror⟩
    · left
      refine ⟨a :: s, .cons hword hreads, ?_⟩
      rw [heq, hok, List.append_assoc, List.singleton_append]
    · right
      exact ⟨stuck, hstuck.word hword, heq.trans herror⟩
  induction ptr, res using decodeFrom.induct with
  | case1 res =>
    left
    exact ⟨[], .nil, by rw [decodeFrom, List.append_nil]⟩
  | case2 res first second ptr res' hhex ih =>
    by_cases hdigits : IsXDigit first = true ∧ IsXDigit second = true
    · have hsome := hdigits
      rw [IsXDigit_eq, IsXDigit_eq, Option.isSome_iff_exists, Option.isSome_iff_exists] at hsome
      obtain ⟨⟨x, hx⟩, ⟨y, hy⟩⟩ := hsome
      rw [FromHex_pair, if_pos hdigits, (digit_values hx).1, (digit_values hy).1,
        shiftLeft_or (xdigit?_lt hx) (xdigit?_lt hy)] at hhex
      rw [← (Prod.mk.inj hhex).2] at ih
      exact hturn res (.escape hx hy) (decodeFrom_escape url ptr res hx hy) ih
    · rw [FromHex_pair, if_neg hdigits] at hhex
      cases (Prod.mk.inj hhex).1
  | case3 res first second ptr length res' hhex hlength =>
    have hdigits : ¬ (IsXDigit first = true ∧ IsXDigit second = true) := by
      intro hdigits
      rw [FromHex_pair, if_pos hdigits] at hhex
      exact hlength (Prod.mk.inj hhex).1.symm
    right
    refine ⟨_, stuckAt_self (List.cons_ne_nil _ _) (not_begins_of_not_digits hdigits), ?_⟩
    rw [decodeFrom, if_pos rfl]
    simp only [hhex, if_neg hlength]
  | case4 res ptr hshort =>
    right
    refine ⟨_, stuckAt_self (List.cons_ne_nil _ _) (not_begins_of_short fun _ _ _ => hshort _ _ _), ?_⟩
    rw [decodeFrom.eq_def]
    match ptr with
    | [] => rfl
    | [_] => rfl
    | first :: second :: rest => exact (hshort first second rest rfl).elim
  | case5 ptr res _ ih => exact hturn res .plus (decodeFrom_plus url ptr res) ih
  | case6 c ptr res hpercent hplus ih =>
    exact hturn res (.plain hpercent hplus) (decodeFrom_plain url ptr res hpercent hplus) ih

/-- The decoder reads its text, or throws at the first sequence it cannot read. -/
theorem UrlDecode_spec (url : Bytes) :
    (∃ s, Reads PercentCode url s ∧ UrlDecode url = .ok s) ∨
      ∃ rest, StuckAt PercentCode url rest ∧ UrlDecode url = .error (invalidSequence url rest) := by
  unfold UrlDecode
  -- Without `%` and `+` the loop is not entered.
  by_cases hplain : ascii '%' ∉ url ∧ ascii '+' ∉ url
  · left
    exact ⟨url, reads_plain hplain, if_pos hplain⟩
  · rw [if_neg hplain]
    exact decodeFrom_spec url url []

/-- The bytes that are accepted, and what they decode to. -/
theorem UrlDecode_eq_ok_iff {url s : Bytes} : UrlDecode url = .ok s ↔ Reads PercentCode url s := by
  constructor
  · intro h
    rcases UrlDecode_spec url with ⟨s', hreads, hok⟩ | ⟨rest, _, herror⟩
    · rw [hok] at h
      cases h
      exact hreads
    · rw [herror] at h
      cases h
  · intro h
    rcases UrlDecode_spec url with ⟨s', hreads, hok⟩ | ⟨rest, hstuck, _⟩
    · rw [hok, hreads.unique isPrefix_percentCode h]
    · exact absurd h (hstuck.not_reads isPrefix_percentCode)

/-- The exception shows the sequence. -/
theorem UrlDecode_error {url : Bytes} {e : RuntimeError} (h : UrlDecode url = .error e) :
    ∃ rest, StuckAt PercentCode url rest ∧ e = invalidSequence url rest := by
  rcases UrlDecode_spec url with ⟨s, _, hok⟩ | ⟨rest, hstuck, herror⟩
  · rw [hok] at h
    cases h
  · rw [herror] at h
    cases h
    exact ⟨rest, hstuck, rfl⟩

/-! ## The other decoder -/

/-- The arithmetic of the lenient decoder is that of the strict one. -/
theorem lenient_escape {first second : UInt8} {x y : Nat} (hx : xdigit? first = some x)
    (hy : xdigit? second = some y) :
    UInt8.ofInt (lenientDigit first * 16 + lenientDigit second) = UInt8.ofNat (16 * x + y) := by
  rw [(digit_values hx).2, (digit_values hy).2]
  have hx16 := xdigit?_lt hx
  have hy16 := xdigit?_lt hy
  have hmod : (((x : Int) * 16 + (y : Int)) % 2 ^ 8).toNat = 16 * x + y := by omega
  rw [UInt8.ofInt, hmod]

/-- `http::UrlDecode` reads the texts of the code alike. -/
theorem http_UrlDecode_of_reads {url s : Bytes} (h : Reads PercentCode url s) :
    Http.UrlDecode url = s := by
  induction h with
  | nil => rfl
  | @cons a word text symbols hword _ ih =>
    cases hword with
    | plain hpercent hplus =>
      rw [List.singleton_append, Http.UrlDecode.eq_def]
      simp only [if_neg hplus, if_neg hpercent, ih]
    | plus =>
      rw [List.singleton_append, Http.UrlDecode.eq_def]
      simp only [if_true, ih]
    | escape hx hy =>
      show Http.UrlDecode (ascii '%' :: _ :: _ :: text) = _
      rw [Http.UrlDecode.eq_def]
      simp only [if_neg percent_ne_plus, if_true, lenient_escape hx hy, ih]

/-! ## Encoding -/

/-- A byte is written as itself or escaped. -/
theorem encodeSymbol_cases (b : UInt8) :
    (encodeSymbol b = [b] ∧ b ≠ ascii '%' ∧ b ≠ ascii '+' ∧ b ≠ ascii '&' ∧ b ≠ ascii '=') ∨
      ∃ first second, encodeSymbol b = [ascii '%', first, second] ∧
        xdigit? first = some (b.toNat / 16) ∧ xdigit? second = some (b.toNat % 16) := by
  refine forall_byte (P := fun b =>
    (encodeSymbol b = [b] ∧ b ≠ ascii '%' ∧ b ≠ ascii '+' ∧ b ≠ ascii '&' ∧ b ≠ ascii '=') ∨
      ∃ first second, encodeSymbol b = [ascii '%', first, second] ∧
        xdigit? first = some (b.toNat / 16) ∧ xdigit? second = some (b.toNat % 16)) ?_ b
  intro n hn
  have hall : ∀ n < 256, (encodeSymbol (UInt8.ofNat n) = [UInt8.ofNat n] ∧
      UInt8.ofNat n ≠ ascii '%' ∧ UInt8.ofNat n ≠ ascii '+' ∧ UInt8.ofNat n ≠ ascii '&' ∧
        UInt8.ofNat n ≠ ascii '=') ∨
      encodeSymbol (UInt8.ofNat n) = [ascii '%', percentDigit ((UInt8.ofNat n &&& 0xF0) / 16),
          percentDigit (UInt8.ofNat n &&& 0x0F)] ∧
        xdigit? (percentDigit ((UInt8.ofNat n &&& 0xF0) / 16)) = some ((UInt8.ofNat n).toNat / 16) ∧
        xdigit? (percentDigit (UInt8.ofNat n &&& 0x0F)) = some ((UInt8.ofNat n).toNat % 16) := by
    decide +kernel
  rcases hall n hn with h | h
  · exact .inl h
  · exact .inr ⟨_, _, h⟩

/-- Every byte is written as a word for it. -/
theorem encodeSymbol_word (b : UInt8) : PercentCode b (encodeSymbol b) := by
  rcases encodeSymbol_cases b with ⟨hself, hpercent, hplus, _, _⟩ | ⟨first, second, hescape, hx, hy⟩
  · rw [hself]
    exact .plain hpercent hplus
  · have hb : UInt8.ofNat (16 * (b.toNat / 16) + b.toNat % 16) = b := by
      rw [Nat.div_add_mod, UInt8.ofNat_toNat]
    rw [hescape]
    have hword := PercentCode.escape hx hy
    rwa [hb] at hword

/-- No separator of a query is written for a byte. -/
theorem notMem_encodeSymbol {sep : UInt8} (hsep : sep = ascii '&' ∨ sep = ascii '=') (b : UInt8) :
    sep ∉ encodeSymbol b := by
  have hxdigit : xdigit? sep = none := by
    rcases hsep with rfl | rfl <;> decide
  have hpercent : sep ≠ ascii '%' := by
    rcases hsep with rfl | rfl <;> decide
  intro hmem
  rcases encodeSymbol_cases b with ⟨hself, _, _, hamp, heq⟩ | ⟨first, second, hescape, hx, hy⟩
  · rw [hself, List.mem_singleton] at hmem
    subst hmem
    exact hsep.elim hamp heq
  · rw [hescape] at hmem
    simp only [List.mem_cons, List.not_mem_nil, or_false] at hmem
    rcases hmem with h | rfl | rfl
    · exact hpercent h
    · rw [hxdigit] at hx
      cases hx
    · rw [hxdigit] at hy
      cases hy

theorem UrlEncodeTo_eq (input_string result : Bytes) :
    UrlEncodeTo input_string result = result ++ input_string.flatMap encodeSymbol := by
  rw [UrlEncodeTo, List.foldl_append_eq_append, List.flatMap]

theorem UrlEncode_eq (input_string : Bytes) : UrlEncode input_string = input_string.flatMap encodeSymbol :=
  UrlEncodeTo_eq input_string []

/-- A separator is always escaped. -/
theorem notMem_UrlEncode {sep : UInt8} (hsep : sep = ascii '&' ∨ sep = ascii '=') (s : Bytes) :
    sep ∉ UrlEncode s := by
  rw [UrlEncode_eq]
  intro hmem
  obtain ⟨b, _, hb⟩ := List.mem_flatMap.mp hmem
  exact notMem_encodeSymbol hsep b hb

/-- What is encoded can be read. -/
theorem reads_UrlEncode (s : Bytes) : Reads PercentCode (UrlEncode s) s := by
  rw [UrlEncode_eq]
  exact reads_flatMap encodeSymbol_word s

theorem UrlEncode_eq_nil_iff {s : Bytes} : UrlEncode s = [] ↔ s = [] := by
  have hreads := reads_UrlEncode s
  constructor
  · intro hnil
    rw [hnil] at hreads
    exact (reads_nil_iff isPrefix_percentCode).mp hreads
  · rintro rfl
    rfl

/-! ## The loop -/

section Loop

variable {σ : Type} {args : Bytes} {handler : ArgsConsumer σ} {c : Cursor} {p q : Nat}

theorem view_self (args : Bytes) (p : Nat) : view args p p = [] := by
  rw [view, Nat.sub_self, List.take_zero]

theorem view_succ {x : UInt8} (hle : p ≤ q) (hx : args[q]? = some x) :
    view args p (q + 1) = view args p q ++ [x] := by
  have hlength : q + 1 - p = (q - p) + 1 := by omega
  have hget : (args.drop p)[q - p]? = some x := by
    rw [List.getElem?_drop, Nat.add_sub_cancel' hle, hx]
  rw [view, view, hlength, List.take_add_one, hget, Option.toList_some]

/-- What is left is the view and what follows it. -/
theorem drop_eq_view (args : Bytes) (hle : p ≤ q) : args.drop p = view args p q ++ args.drop q := by
  have hdrop : args.drop q = (args.drop p).drop (q - p) := by
    rw [List.drop_drop, Nat.add_sub_cancel' hle]
  rw [view, hdrop, List.take_append_drop]

theorem view_eq_nil_iff (hle : p ≤ q) (hq : q ≤ args.length) : view args p q = [] ↔ p = q := by
  have hlength : (view args p q).length = q - p := by
    rw [view, List.length_take, List.length_drop]
    omega
  rw [← List.length_eq_zero_iff, hlength]
  omega

/-- The piece from `key_begin` to `ptr` has no end yet. While its key is read it has no `=`; after
that `key_end` is at its first one. -/
structure CursorAt (args : Bytes) (ptr : Nat) (c : Cursor) : Prop where
  key_begin_le : c.key_begin ≤ ptr
  no_sep : ascii '&' ∉ view args c.key_begin ptr
  no_mark : c.parse_key = true → ascii '=' ∉ view args c.key_begin ptr
  marked : c.parse_key = false → c.key_begin ≤ c.key_end ∧ c.key_end < ptr ∧
    ascii '=' ∉ view args c.key_begin c.key_end ∧
    view args c.key_begin ptr =
      view args c.key_begin c.key_end ++ ascii '=' :: view args (c.key_end + 1) ptr

/-- What is done with a field. -/
def consumeField (handler : ArgsConsumer σ) (s : σ) (field : Bytes × Bytes) : Except RuntimeError σ := do
  let key ← UrlDecode field.1
  let value ← UrlDecode field.2
  return handler key value s

/-- And with a piece, which may have no name. -/
def consumePiece (handler : ArgsConsumer σ) (s : σ) (piece : Bytes) : Except RuntimeError σ :=
  if (cut (ascii '=') piece).1 ≠ [] then consumeField handler s (cut (ascii '=') piece) else pure s

theorem finishPiece_eq {ptr : Nat} (h : CursorAt args ptr c) (hptr : ptr ≤ args.length) (s : σ) :
    finishPiece args handler ptr c s = consumePiece handler s (view args c.key_begin ptr) := by
  unfold finishPiece consumePiece
  cases hkey : c.parse_key with
  | true =>
    rw [cut_name (h.no_mark hkey)]
    simp only [reduceCtorEq, if_false]
    rfl
  | false =>
    obtain ⟨hbegin, hend, hmark, hview⟩ := h.marked hkey
    rw [hview, cut_mark hmark]
    have hname : (c.key_begin < c.key_end ∧ c.key_end + 1 ≤ ptr) ↔
        view args c.key_begin c.key_end ≠ [] := by
      rw [Ne, view_eq_nil_iff hbegin (by omega)]
      omega
    simp only [if_true, hname]
    rfl

/-- The cursor after the end of a piece. -/
theorem CursorAt.next (args : Bytes) (ptr key_end : Nat) :
    CursorAt args (ptr + 1) ⟨ptr + 1, key_end, true⟩ where
  key_begin_le := le_refl _
  no_sep := by
    rw [view_self]
    exact List.not_mem_nil
  no_mark := by
    intro _
    rw [view_self]
    exact List.not_mem_nil
  marked := by
    intro hkey
    cases hkey

/-- The cursor at the first `=` of a piece. -/
theorem CursorAt.mark {ptr : Nat} (h : CursorAt args ptr c) (hkey : c.parse_key = true)
    (hx : args[ptr]? = some (ascii '=')) : CursorAt args (ptr + 1) ⟨c.key_begin, ptr, false⟩ where
  key_begin_le := Nat.le_succ_of_le h.key_begin_le
  no_sep := by
    rw [view_succ h.key_begin_le hx, List.mem_append, List.mem_singleton]
    rintro (hmem | heq)
    · exact h.no_sep hmem
    · revert heq
      decide
  no_mark := by
    intro hkey
    cases hkey
  marked := by
    intro _
    refine ⟨h.key_begin_le, Nat.lt_succ_self ptr, h.no_mark hkey, ?_⟩
    rw [view_self, view_succ h.key_begin_le hx]

/-- The cursor at any other character. -/
theorem CursorAt.step {ptr : Nat} {x : UInt8} (h : CursorAt args ptr c) (hx : args[ptr]? = some x)
    (hsep : x ≠ ascii '&') (hmark : ¬ (x = ascii '=' ∧ c.parse_key = true)) :
    CursorAt args (ptr + 1) c where
  key_begin_le := Nat.le_succ_of_le h.key_begin_le
  no_sep := by
    rw [view_succ h.key_begin_le hx, List.mem_append, List.mem_singleton]
    rintro (hmem | heq)
    · exact h.no_sep hmem
    · exact hsep heq.symm
  no_mark := by
    intro hkey
    rw [view_succ h.key_begin_le hx, List.mem_append, List.mem_singleton]
    rintro (hmem | heq)
    · exact h.no_mark hkey hmem
    · exact hmark ⟨heq.symm, hkey⟩
  marked := by
    intro hkey
    obtain ⟨hbegin, hend, hname, hview⟩ := h.marked hkey
    refine ⟨hbegin, by omega, hname, ?_⟩
    rw [view_succ h.key_begin_le hx, view_succ (by omega) hx, hview, List.append_assoc, List.cons_append]

/-- From `ptr` on, the loop goes through the pieces that begin with the current one. -/
theorem parseAt_foldlM (handler : ArgsConsumer σ) (rest : Bytes) {ptr : Nat} (s : σ)
    (hrest : args.drop ptr = rest) (hptr : ptr ≤ args.length) (h : CursorAt args ptr c) :
    Prod.snd <$> (List.range' ptr (rest.length + 1)).foldlM (parseAt args handler) (c, s) =
      ((args.drop c.key_begin).splitOn (ascii '&')).foldlM (consumePiece handler) s := by
  induction rest generalizing ptr c s with
  | nil =>
    -- The end of the text ends the last piece.
    have hend : ptr = args.length := le_antisymm hptr (List.drop_eq_nil_iff.mp hrest)
    have hsplit : args.drop c.key_begin = view args c.key_begin ptr := by
      rw [drop_eq_view args h.key_begin_le, hrest, List.append_nil]
    rw [hsplit, List.splitOn_eq_singleton h.no_sep]
    simp only [List.length_nil, Nat.zero_add, List.range'_one, List.foldlM_cons, List.foldlM_nil,
      parseAt, if_pos (Or.inl hend), finishPiece_eq h hptr, bind_pure]
    cases consumePiece handler s (view args c.key_begin ptr) with
    | error e => rfl
    | ok s' => rfl
  | cons x rest ih =>
    have hx : args[ptr]? = some x := by
      rw [← List.head?_drop, hrest, List.head?_cons]
    have hlt : ptr < args.length := by
      by_contra hge
      rw [List.drop_eq_nil_of_le (by omega)] at hrest
      cases hrest
    have hrest' : args.drop (ptr + 1) = rest := by
      rw [← List.tail_drop, hrest, List.tail_cons]
    rw [List.length_cons, List.range'_succ, List.foldlM_cons]
    by_cases hsep : x = ascii '&'
    · -- A separator ends the piece.
      subst hsep
      have hsplit : args.drop c.key_begin = view args c.key_begin ptr ++ ascii '&' :: rest := by
        rw [drop_eq_view args h.key_begin_le, hrest]
      rw [hsplit, List.splitOn_append_cons_self_of_not_mem h.no_sep, List.foldlM_cons]
      simp only [parseAt, if_pos (Or.inr hx), finishPiece_eq h hptr]
      cases consumePiece handler s (view args c.key_begin ptr) with
      | error e => rfl
      | ok s' =>
        have hnext := ih s' hrest' hlt (CursorAt.next args ptr
          (if c.parse_key = false then c.key_end else ptr))
        rw [hrest'] at hnext
        exact hnext
    · have hnot : ¬ (ptr = args.length ∨ args[ptr]? = some (ascii '&')) := by
        rw [hx, Option.some.injEq]
        exact not_or.mpr ⟨hlt.ne, hsep⟩
      by_cases hmark : x = ascii '=' ∧ c.parse_key = true
      · have hstep : parseAt args handler (c, s) ptr = .ok (⟨c.key_begin, ptr, false⟩, s) := by
          have hpos : args[ptr]? = some (ascii '=') ∧ c.parse_key = true := by
            rw [hx, hmark.1]
            exact ⟨rfl, hmark.2⟩
          simp only [parseAt, if_neg hnot, if_pos hpos]
        rw [hstep]
        exact ih s hrest' hlt (h.mark hmark.2 (hmark.1 ▸ hx))
      · have hstep : parseAt args handler (c, s) ptr = .ok (c, s) := by
          have hneg : ¬ (args[ptr]? = some (ascii '=') ∧ c.parse_key = true) := by
            rwa [hx, Option.some.injEq]
          simp only [parseAt, if_neg hnot, if_neg hneg]
        rw [hstep]
        exact ih s hrest' hlt (h.step hx hsep hmark)

/-- The loop goes through the fields of its text. -/
theorem ParseAndConsumeArgs_eq (args : Bytes) (handler : ArgsConsumer σ) (s : σ) :
    ParseAndConsumeArgs args handler s =
      (fields (ascii '&') (ascii '=') args).foldlM (consumeField handler) s := by
  have hstart : CursorAt args 0 ⟨0, 0, true⟩ := by
    constructor
    · exact le_refl _
    · rw [view_self]
      exact List.not_mem_nil
    · intro _
      rw [view_self]
      exact List.not_mem_nil
    · intro hkey
      cases hkey
  have hloop := parseAt_foldlM handler args s List.drop_zero (Nat.zero_le _) hstart
  rw [foldlM_fields, ParseAndConsumeArgs, List.range_eq_range', hloop]
  rfl

end Loop

/-! ## What is read -/

section Read

variable {σ : Type}

/-- The handler is given the readings of the fields. -/
theorem consumeField_eq_ok {handler : ArgsConsumer σ} {s s' : σ} {field : Bytes × Bytes} :
    consumeField handler s field = .ok s' ↔
      ∃ pair, ReadsPair PercentCode field pair ∧ handler pair.1 pair.2 s = s' := by
  unfold consumeField
  constructor
  · intro h
    cases hkey : UrlDecode field.1 with
    | error e =>
      rw [hkey] at h
      cases h
    | ok key =>
      cases hvalue : UrlDecode field.2 with
      | error e =>
        rw [hkey, hvalue] at h
        cases h
      | ok value =>
        rw [hkey, hvalue] at h
        cases h
        exact ⟨(key, value), ⟨UrlDecode_eq_ok_iff.mp hkey, UrlDecode_eq_ok_iff.mp hvalue⟩, rfl⟩
  · rintro ⟨⟨key, value⟩, ⟨hkey, hvalue⟩, rfl⟩
    rw [UrlDecode_eq_ok_iff.mpr hkey, UrlDecode_eq_ok_iff.mpr hvalue]
    rfl

theorem foldlM_consumeField_eq_ok {handler : ArgsConsumer σ} {s s' : σ} {texts : List (Bytes × Bytes)} :
    texts.foldlM (consumeField handler) s = .ok s' ↔
      ∃ pairs, List.Forall₂ (ReadsPair PercentCode) texts pairs ∧
        pairs.foldl (fun s pair => handler pair.1 pair.2 s) s = s' := by
  induction texts generalizing s with
  | nil =>
    constructor
    · intro h
      cases h
      exact ⟨[], .nil, rfl⟩
    · rintro ⟨pairs, hpairs, rfl⟩
      cases hpairs
      rfl
  | cons field texts ih =>
    rw [List.foldlM_cons]
    constructor
    · intro h
      cases hfield : consumeField handler s field with
      | error e =>
        rw [hfield] at h
        cases h
      | ok s₁ =>
        rw [hfield] at h
        obtain ⟨pairs, hpairs, hfold⟩ := ih.mp h
        obtain ⟨pair, hpair, rfl⟩ := consumeField_eq_ok.mp hfield
        exact ⟨pair :: pairs, .cons hpair hpairs, hfold⟩
    · rintro ⟨pairs, hpairs, hfold⟩
      cases hpairs with
      | @cons _ pair _ pairs hpair hrest =>
        rw [consumeField_eq_ok.mpr ⟨pair, hpair, rfl⟩]
        exact ih.mpr ⟨pairs, hrest, hfold⟩

/-- An exception is about the first field that cannot be read. -/
theorem foldlM_consumeField_error {handler : ArgsConsumer σ} {s : σ} {texts : List (Bytes × Bytes)}
    {e : RuntimeError} (h : texts.foldlM (consumeField handler) s = .error e) :
    ∃ before field after pairs, texts = before ++ field :: after ∧
      List.Forall₂ (ReadsPair PercentCode) before pairs ∧
      ∃ url rest, (url = field.1 ∨ url = field.2) ∧ StuckAt PercentCode url rest ∧
        e = invalidSequence url rest := by
  induction texts generalizing s with
  | nil => cases h
  | cons field texts ih =>
    rw [List.foldlM_cons] at h
    cases hfield : consumeField handler s field with
    -- the first field that cannot be read decides
    | ok s₁ =>
      rw [hfield] at h
      obtain ⟨pair, hpair, _⟩ := consumeField_eq_ok.mp hfield
      obtain ⟨before, stuck, after, pairs, rfl, hpairs, hstuck⟩ := ih h
      exact ⟨field :: before, stuck, after, pair :: pairs, rfl, .cons hpair hpairs, hstuck⟩
    | error e' =>
      rw [hfield] at h
      cases h
      refine ⟨[], field, texts, [], rfl, .nil, ?_⟩
      unfold consumeField at hfield
      cases hkey : UrlDecode field.1 with
      | error e' =>
        rw [hkey] at hfield
        cases hfield
        obtain ⟨rest, hstuck, heq⟩ := UrlDecode_error hkey
        exact ⟨field.1, rest, .inl rfl, hstuck, heq⟩
      | ok key =>
        cases hvalue : UrlDecode field.2 with
        | error e' =>
          rw [hkey, hvalue] at hfield
          cases hfield
          obtain ⟨rest, hstuck, heq⟩ := UrlDecode_error hvalue
          exact ⟨field.2, rest, .inr rfl, hstuck, heq⟩
        | ok value =>
          rw [hkey, hvalue] at hfield
          cases hfield

end Read

/-! ## Arguments -/

namespace RequestArgs

theorem lookup_pushArg (key value name : Bytes) (entries : List (Bytes × List Bytes)) :
    (pushArg key value entries).lookup name =
      if name = key then some ((entries.lookup key).getD [] ++ [value]) else entries.lookup name := by
  induction entries with
  | nil =>
    by_cases hname : name = key
    · subst hname
      simp [pushArg]
    · rw [if_neg hname, pushArg, List.lookup_cons, beq_false_of_ne hname]
  | cons entry entries ih =>
    obtain ⟨k, values⟩ := entry
    rw [pushArg]
    by_cases hk : k = key
    · subst hk
      rw [if_pos rfl, List.lookup_cons, List.lookup_cons, List.lookup_cons, beq_self_eq_true]
      by_cases hname : name = k
      · rw [if_pos hname, hname, beq_self_eq_true]
        rfl
      · rw [if_neg hname, beq_false_of_ne hname]
    · have hne : key ≠ k := fun heq => hk heq.symm
      rw [if_neg hk, List.lookup_cons, List.lookup_cons, List.lookup_cons, ih, beq_false_of_ne hne]
      by_cases hname : name = k
      · subst hname
        rw [if_neg hk, if_neg hk, beq_self_eq_true]
      · rw [beq_false_of_ne hname]

/-- The value joins those of its key. -/
theorem GetArgVector_AddRequestArg (key value name : Bytes) (args : RequestArgs) :
    (args.AddRequestArg key value).GetArgVector name =
      if name = key then args.GetArgVector name ++ [value] else args.GetArgVector name := by
  unfold GetArgVector AddRequestArg
  rw [lookup_pushArg]
  by_cases hname : name = key
  · rw [if_pos hname, if_pos hname, hname, Option.getD_some]
  · rw [if_neg hname, if_neg hname]

/-- `at(0)` never throws: no vector is empty. -/
theorem GetArg_eq (args : RequestArgs) (name : Bytes) :
    args.GetArg name = .ok ((args.GetArgVector name).headD []) := by
  unfold GetArg GetArgVector
  cases hlookup : args.entries.lookup name with
  | none => rfl
  | some values =>
    obtain ⟨before, after, hentries, _⟩ := List.lookup_eq_some_iff.mp hlookup
    have hmem : (name, values) ∈ args.entries := by
      rw [hentries]
      exact List.mem_append_right _ List.mem_cons_self
    obtain ⟨v, rest, hvalues⟩ := List.exists_cons_of_ne_nil (args.filled _ hmem)
    rw [show values = v :: rest from hvalues]
    rfl

/-- An argument that was given has a value. -/
theorem HasArg_iff (args : RequestArgs) (name : Bytes) :
    args.HasArg name = true ↔ args.GetArgVector name ≠ [] := by
  unfold HasArg GetArgVector
  cases hlookup : args.entries.lookup name with
  | none => simp
  | some values =>
    obtain ⟨before, after, hentries, _⟩ := List.lookup_eq_some_iff.mp hlookup
    have hmem : (name, values) ∈ args.entries := by
      rw [hentries]
      exact List.mem_append_right _ List.mem_cons_self
    have hfilled : values ≠ [] := args.filled _ hmem
    simp [hfilled]

/-- The arguments added in this order. -/
def ofPairs (pairs : List (Bytes × Bytes)) : RequestArgs :=
  pairs.foldl (fun args pair => args.AddRequestArg pair.1 pair.2) empty

/-- The values of a name among pairs, in order. -/
def values (pairs : List (Bytes × Bytes)) (name : Bytes) : List Bytes :=
  (pairs.filter fun pair => pair.1 = name).map Prod.snd

theorem values_cons (pair : Bytes × Bytes) (pairs : List (Bytes × Bytes)) (name : Bytes) :
    values (pair :: pairs) name =
      if name = pair.1 then pair.2 :: values pairs name else values pairs name := by
  unfold values
  by_cases hname : name = pair.1
  · rw [if_pos hname, List.filter_cons_of_pos (by simp [hname]), List.map_cons]
  · rw [if_neg hname, List.filter_cons_of_neg (by simpa using fun heq => hname heq.symm)]

/-- The vector of a name holds its values in order. -/
theorem GetArgVector_ofPairs (pairs : List (Bytes × Bytes)) (name : Bytes) :
    (ofPairs pairs).GetArgVector name = values pairs name := by
  have hfold : ∀ args : RequestArgs,
      (pairs.foldl (fun args pair => args.AddRequestArg pair.1 pair.2) args).GetArgVector name =
        args.GetArgVector name ++ values pairs name := by
    induction pairs with
    | nil =>
      intro args
      exact (List.append_nil _).symm
    | cons pair pairs ih =>
      intro args
      rw [List.foldl_cons, ih, GetArgVector_AddRequestArg, values_cons]
      by_cases hname : name = pair.1
      · rw [if_pos hname, if_pos hname, List.append_assoc, List.singleton_append]
      · rw [if_neg hname, if_neg hname]
  exact hfold empty

end RequestArgs

/-- The fields a request's arguments are parsed from. -/
def RequestText.fields (request : RequestText) : List (Bytes × Bytes) :=
  (request.query.map (Codes.fields (ascii '&') (ascii '='))).getD [] ++
    if request.parse_args_from_body = true ∧ request.compressed = false then
      Codes.fields (ascii '&') (ascii '=') request.body
    else []

theorem parseArgs_eq (request : RequestText) :
    request.parseArgs = request.fields.foldlM (consumeField RequestArgs.AddRequestArg) .empty := by
  -- the body is parsed like a query, if it is to be and is not compressed
  have hbody : ∀ args : RequestArgs,
      (if request.parse_args_from_body && !request.compressed then ParseArgs request.body args
        else return args) =
      (if request.parse_args_from_body = true ∧ request.compressed = false then
        Codes.fields (ascii '&') (ascii '=') request.body else []).foldlM
          (consumeField RequestArgs.AddRequestArg) args := by
    intro args
    by_cases hparse : request.parse_args_from_body = true ∧ request.compressed = false
    · have hparse' : (request.parse_args_from_body && !request.compressed) = true := by
        rw [hparse.1, hparse.2]
        rfl
      rw [if_pos hparse, if_pos hparse', ParseArgs, ParseAndConsumeArgs_eq]
    · have hparse' : ¬ (request.parse_args_from_body && !request.compressed) = true := by
        simpa using hparse
      rw [if_neg hparse, if_neg hparse']
      rfl
  unfold RequestText.parseArgs RequestText.fields
  rw [List.foldlM_append]
  cases hquery : request.query with
  | none => exact hbody _
  | some query =>
    simp only [ParseArgs, ParseAndConsumeArgs_eq, Option.map_some, Option.getD_some]
    congr 1
    funext args
    have hargs := hbody args
    rw [ParseArgs, ParseAndConsumeArgs_eq] at hargs
    exact hargs

/-- **Arguments.** A request's arguments are the readings of its fields. If one cannot be read, the
request fails with an exception that names the first sequence that is no escape. -/
theorem args_parsed (request : RequestText) :
    (∀ args, request.parseArgs = .ok args ↔
      ∃ pairs, List.Forall₂ (ReadsPair PercentCode) request.fields pairs ∧
        RequestArgs.ofPairs pairs = args) ∧
    ∀ e, request.parseArgs = .error e →
      ∃ before field after pairs, request.fields = before ++ field :: after ∧
        List.Forall₂ (ReadsPair PercentCode) before pairs ∧
        ∃ url rest, (url = field.1 ∨ url = field.2) ∧ StuckAt PercentCode url rest ∧
          e = invalidSequence url rest := by
  rw [parseArgs_eq]
  constructor
  · intro args
    exact foldlM_consumeField_eq_ok
  · intro e he
    exact foldlM_consumeField_error he

example : (RequestText.parseArgs ⟨some (bytes "a=%20&x=1&=2&a=+%3d"), [], false, false⟩).map
    (·.entries) = .ok [(bytes "a", [bytes " ", bytes " ="]), (bytes "x", [bytes "1"])] := by
  decide +kernel

/-! ## Queries that are made -/

/-- An argument as it is written. -/
def encodeArg (arg : Bytes × Bytes) : Bytes := UrlEncode arg.1 ++ ascii '=' :: UrlEncode arg.2

theorem appendArg_eq (arg : Bytes × Bytes) (first : Bool) (result : Bytes) :
    appendArg arg first result =
      result ++ (if first = true then [] else [ascii '&']) ++ encodeArg arg := by
  unfold appendArg encodeArg
  cases first with
  | true => simp [UrlEncodeTo_eq, UrlEncode_eq]
  | false => simp [UrlEncodeTo_eq, UrlEncode_eq]

theorem DoMakeQueryTo_eq (query_args : List (Bytes × Bytes)) (result : Bytes) :
    DoMakeQueryTo query_args false result =
      result ++ query_args.flatMap fun arg => ascii '&' :: encodeArg arg := by
  induction query_args generalizing result with
  | nil => exact (List.append_nil _).symm
  | cons arg query_args ih =>
    rw [DoMakeQueryTo, ih, appendArg_eq, List.flatMap_cons]
    simp

/-- The arguments are joined by `&`. -/
theorem MakeQuery_eq (query_args : List (Bytes × Bytes)) :
    MakeQuery query_args = [ascii '&'].intercalate (query_args.map encodeArg) := by
  cases query_args with
  | nil => rfl
  | cons arg query_args =>
    rw [MakeQuery, DoMakeQueryTo, DoMakeQueryTo_eq, appendArg_eq, List.map_cons, intercalate_cons,
      List.flatMap_map]
    rfl

/-- The fields of a query that was made are its arguments, encoded, but for those without a key. -/
theorem fields_MakeQuery (query_args : List (Bytes × Bytes)) :
    Codes.fields (ascii '&') (ascii '=') (MakeQuery query_args) =
      (query_args.filter fun arg => arg.1 ≠ []).map fun arg => (UrlEncode arg.1, UrlEncode arg.2) := by
  have hsep : ∀ piece ∈ query_args.map encodeArg, ascii '&' ∉ piece := by
    intro piece hpiece
    obtain ⟨arg, _, rfl⟩ := List.mem_map.mp hpiece
    rw [encodeArg, List.mem_append, List.mem_cons]
    rintro (hmem | heq | hmem)
    · exact notMem_UrlEncode (.inl rfl) _ hmem
    · revert heq
      decide
    · exact notMem_UrlEncode (.inl rfl) _ hmem
  rw [MakeQuery_eq, fields_intercalate hsep]
  induction query_args with
  | nil => rfl
  | cons arg query_args ih =>
    have hcut : cut (ascii '=') (encodeArg arg) = (UrlEncode arg.1, UrlEncode arg.2) :=
      cut_mark (notMem_UrlEncode (.inr rfl) _)
    have hrest := ih fun piece hpiece => hsep piece (List.mem_cons_of_mem _ hpiece)
    rw [List.map_cons, List.map_cons, hcut]
    by_cases hkey : arg.1 = []
    · rw [List.filter_cons_of_neg (by simp [UrlEncode_eq_nil_iff, hkey]),
        List.filter_cons_of_neg (by simp [hkey]), hrest]
    · rw [List.filter_cons_of_pos (by simp [UrlEncode_eq_nil_iff, hkey]),
        List.filter_cons_of_pos (by simp [hkey]), hrest, List.map_cons]

/-- They are read as the arguments. -/
theorem parseArgs_MakeQuery (query_args : List (Bytes × Bytes)) (body : Bytes) (compressed : Bool) :
    RequestText.parseArgs ⟨some (MakeQuery query_args), body, compressed, false⟩ =
      .ok (RequestArgs.ofPairs (query_args.filter fun arg => arg.1 ≠ [])) := by
  have hfields : RequestText.fields ⟨some (MakeQuery query_args), body, compressed, false⟩ =
      (query_args.filter fun arg => arg.1 ≠ []).map fun arg => (UrlEncode arg.1, UrlEncode arg.2) := by
    rw [RequestText.fields, if_neg (by simp), List.append_nil]
    exact fields_MakeQuery query_args
  rw [parseArgs_eq, hfields, foldlM_consumeField_eq_ok]
  refine ⟨_, ?_, rfl⟩
  rw [List.forall₂_map_left_iff, List.forall₂_same]
  intro arg _
  exact ⟨reads_UrlEncode _, reads_UrlEncode _⟩

/-- Dropping empty keys loses no other argument. -/
theorem values_filter (query_args : List (Bytes × Bytes)) {name : Bytes} (hname : name ≠ []) :
    RequestArgs.values (query_args.filter fun arg => arg.1 ≠ []) name =
      RequestArgs.values query_args name := by
  unfold RequestArgs.values
  rw [List.filter_filter]
  congr 1
  apply List.filter_congr
  intro arg _
  by_cases h : arg.1 = name
  · simp [h, hname]
  · simp [h]

/-- **Queries.** A request with a query that `MakeQuery` made is given its arguments: of each key all
values in order, and the first of them by `GetArg`. Only an argument without a key is lost. -/
theorem query_read_back (query_args : List (Bytes × Bytes)) (body : Bytes) (compressed : Bool) :
    ∃ args, RequestText.parseArgs ⟨some (MakeQuery query_args), body, compressed, false⟩ = .ok args ∧
      args.HasArg [] = false ∧
      ∀ name, name ≠ [] →
        args.GetArgVector name = RequestArgs.values query_args name ∧
        args.GetArg name = .ok ((RequestArgs.values query_args name).headD []) := by
  refine ⟨_, parseArgs_MakeQuery query_args body compressed, ?_, ?_⟩
  · have hvalues : RequestArgs.values (query_args.filter fun arg => arg.1 ≠ []) [] = [] := by
      unfold RequestArgs.values
      rw [List.filter_filter, List.map_eq_nil_iff, List.filter_eq_nil_iff]
      intro arg _ h
      simp at h
    rw [← Bool.not_eq_true, RequestArgs.HasArg_iff, RequestArgs.GetArgVector_ofPairs, hvalues]
    exact not_not_intro rfl
  · intro name hname
    rw [RequestArgs.GetArg_eq, RequestArgs.GetArgVector_ofPairs, values_filter query_args hname]
    exact ⟨rfl, rfl⟩

/-- **Decoders.** The two decoders give the same bytes for every text the parser's accepts, and both
give back what was encoded. -/
theorem decoders_agree (url : Bytes) :
    (UrlDecode url = .ok (Http.UrlDecode url) ∨
      ∃ rest, StuckAt PercentCode url rest ∧ UrlDecode url = .error (invalidSequence url rest)) ∧
    UrlDecode (UrlEncode url) = .ok url ∧ Http.UrlDecode (UrlEncode url) = url := by
  refine ⟨?_, UrlDecode_eq_ok_iff.mpr (reads_UrlEncode url), http_UrlDecode_of_reads (reads_UrlEncode url)⟩
  rcases UrlDecode_spec url with ⟨s, hreads, hok⟩ | hstuck
  · left
    rw [hok, http_UrlDecode_of_reads hreads]
  · exact .inr hstuck

end SocialNetwork.Userver

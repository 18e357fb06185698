import Mathlib.Data.List.Nodup
import SocialNetwork.ChatService.Messages

/-!
# Query strings (`http/url.cpp`, `http_request_parse_args.cpp`, `http_request_constructor.cpp`)

How userver writes the arguments of a URL and how it reads them for a handler's `GetArg`. A
`std::string` is its bytes, and the reader keeps the pointers of the C++ loop, as positions.
-/

namespace SocialNetwork.Userver

open ChatService (CppError)

abbrev Bytes := List UInt8

/-- The bytes of an ASCII text. -/
def bytes (s : String) : Bytes := s.toList.map Char.toUInt8

/-- A byte of an ASCII text. -/
abbrev ascii (c : Char) : UInt8 := c.toUInt8

/-- `std::runtime_error`, with the text of its `what()`. -/
structure RuntimeError where
  what : Bytes
deriving DecidableEq

/-! ## Hexadecimal digits (`utils/encoding/hex.cpp`) -/

def IsXDigit (x_digit : UInt8) : Bool := x_digit ∈ bytes "0123456789aAbBcCdDeEfF"

def GetXDigitValue (x_digit : UInt8) : UInt8 :=
  if ascii '0' ≤ x_digit ∧ x_digit ≤ ascii '9' then x_digit - ascii '0'
  else if ascii 'a' ≤ x_digit ∧ x_digit ≤ ascii 'f' then x_digit - ascii 'a' + 10
  else if ascii 'A' ≤ x_digit ∧ x_digit ≤ ascii 'F' then x_digit - ascii 'A' + 10
  else 255

/-- How much was converted, and the output with the bytes pushed. -/
def FromHex : Bytes → Bytes → Nat × Bytes
  | first :: second :: encoded, res =>
    if IsXDigit first = true ∧ IsXDigit second = true then
      let (length, res) := FromHex encoded (res ++ [GetXDigitValue first <<< 4 ||| GetXDigitValue second])
      (length + 2, res)
    else (0, res)
  | _, res => (0, res)

/-! ## Writing (`http/url.cpp`) -/

/-- Letters and digits of the C locale. -/
def isalnum (symbol : UInt8) : Bool :=
  (ascii '0' ≤ symbol && symbol ≤ ascii '9') || (ascii 'A' ≤ symbol && symbol ≤ ascii 'Z') ||
    (ascii 'a' ≤ symbol && symbol ≤ ascii 'z')

/-- A half byte as a digit: `bytes[1]` and `bytes[2]`. -/
def percentDigit (half : UInt8) : UInt8 := half + (if half > 9 then ascii 'A' - 10 else ascii '0')

/-- What `UrlEncodeTo` appends for one symbol. -/
def encodeSymbol (symbol : UInt8) : Bytes :=
  if isalnum symbol = true then [symbol]
  else if symbol ∈ bytes "-_.!~*()'" then [symbol]
  else [ascii '%', percentDigit ((symbol &&& 0xF0) / 16), percentDigit (symbol &&& 0x0F)]

/-- Every byte in turn is appended, encoded. -/
def UrlEncodeTo (input_string result : Bytes) : Bytes :=
  input_string.foldl (fun result symbol => result ++ encodeSymbol symbol) result

def UrlEncode (input_string : Bytes) : Bytes := UrlEncodeTo input_string []

/-- One argument; `first` is whether nothing stands before it. -/
def appendArg (arg : Bytes × Bytes) (first : Bool) (result : Bytes) : Bytes :=
  let result := if first then result else result ++ [ascii '&']
  let result := UrlEncodeTo arg.1 result
  UrlEncodeTo arg.2 (result ++ [ascii '='])

/-- Every argument in turn is appended. -/
def DoMakeQueryTo : List (Bytes × Bytes) → Bool → Bytes → Bytes
  | [], _, result => result
  | arg :: query_args, first, result => DoMakeQueryTo query_args false (appendArg arg first result)

def MakeQuery (query_args : List (Bytes × Bytes)) : Bytes := DoMakeQueryTo query_args true []

/-- `http::UrlDecode` takes the digits as they come: `char` is signed, and any `char` has a value. -/
def lenientDigit (c : UInt8) : Int :=
  if 65 ≤ c.toInt8.toInt then ((c &&& 0xDF).toNat : Int) - 65 + 10 else c.toInt8.toInt - 48

/-- `http::UrlDecode`. -/
def Http.UrlDecode : Bytes → Bytes
  | [] => []
  | i :: range =>
    if i = ascii '+' then ascii ' ' :: UrlDecode range
    else if i = ascii '%' then
      match range with
      | f :: s :: range => UInt8.ofInt (lenientDigit f * 16 + lenientDigit s) :: UrlDecode range
      | range => ascii '%' :: UrlDecode range
    else i :: UrlDecode range

/-! ## Reading (`http_request_parse_args.cpp`) -/

def kMaxOutputLength : Nat := 100

/-- The exception: the sequence at `ptr`, and the input, cut short where it is long. -/
def invalidSequence (url ptr : Bytes) : RuntimeError :=
  let data_short := if url.length > kMaxOutputLength then url.take kMaxOutputLength ++ bytes "<...>"
    else url
  ⟨bytes "invalid percent-encoding sequence '" ++ ptr.take 3 ++ bytes "' in input '" ++ data_short ++
    bytes "'"⟩

/-- The loop of `UrlDecode`, from `ptr` on. -/
def decodeFrom (url : Bytes) : Bytes → Bytes → Except RuntimeError Bytes
  | [], res => .ok res
  | c :: ptr, res =>
    if c = ascii '%' then
      match ptr with
      | first :: second :: ptr =>
        let (length, res) := FromHex [first, second] res
        if length = 2 then decodeFrom url ptr res
        else .error (invalidSequence url (c :: first :: second :: ptr))
      | ptr => .error (invalidSequence url (c :: ptr))
    else if c = ascii '+' then decodeFrom url ptr (res ++ [ascii ' '])
    else decodeFrom url ptr (res ++ [c])

/-- `http::parser::UrlDecode`. -/
def UrlDecode (url : Bytes) : Except RuntimeError Bytes :=
  if ascii '%' ∉ url ∧ ascii '+' ∉ url then .ok url else decodeFrom url url []

variable {σ : Type}

/-- What is done with an argument; `σ` is what it is done to. -/
abbrev ArgsConsumer (σ : Type) := Bytes → Bytes → σ → σ

/-- The pointers of the loop, and whether a key is being read. -/
structure Cursor where
  key_begin : Nat
  key_end : Nat
  parse_key : Bool
deriving DecidableEq

/-- A `string_view` of the characters from `first` to `last`. -/
def view (args : Bytes) (first last : Nat) : Bytes := (args.drop first).take (last - first)

/-- The end of a piece, at `ptr`. -/
def finishPiece (args : Bytes) (handler : ArgsConsumer σ) (ptr : Nat) (c : Cursor) (s : σ) :
    Except RuntimeError σ :=
  if c.parse_key = false then
    let value_begin := c.key_end + 1
    let value_end := ptr
    if c.key_begin < c.key_end ∧ value_begin ≤ value_end then do
      let key ← UrlDecode (view args c.key_begin c.key_end)
      let value ← UrlDecode (view args value_begin value_end)
      return handler key value s
    else .ok s
  else
    let key := view args c.key_begin ptr
    if key ≠ [] then do
      let key ← UrlDecode key
      return handler key [] s
    else .ok s

/-- The body of the loop. -/
def parseAt (args : Bytes) (handler : ArgsConsumer σ) (state : Cursor × σ) (ptr : Nat) :
    Except RuntimeError (Cursor × σ) :=
  let (c, s) := state
  if ptr = args.length ∨ args[ptr]? = some (ascii '&') then do
    let s ← finishPiece args handler ptr c s
    let key_end := if c.parse_key = false then c.key_end else ptr
    return (⟨ptr + 1, key_end, true⟩, s)
  else if args[ptr]? = some (ascii '=') ∧ c.parse_key = true then
    .ok (⟨c.key_begin, ptr, false⟩, s)
  else .ok (c, s)

def ParseAndConsumeArgs (args : Bytes) (handler : ArgsConsumer σ) (s : σ) : Except RuntimeError σ :=
  Prod.snd <$> (List.range (args.length + 1)).foldlM (parseAt args handler) (⟨0, 0, true⟩, s)

/-! ## The arguments of a request -/

/-- `request_args[key].push_back(value)`. -/
def pushArg (key value : Bytes) : List (Bytes × List Bytes) → List (Bytes × List Bytes)
  | [] => [(key, [value])]
  | (k, values) :: entries =>
    if k = key then (k, values ++ [value]) :: entries else (k, values) :: pushArg key value entries

theorem map_fst_pushArg (key value : Bytes) (entries : List (Bytes × List Bytes)) :
    (pushArg key value entries).map Prod.fst =
      if key ∈ entries.map Prod.fst then entries.map Prod.fst else entries.map Prod.fst ++ [key] := by
  induction entries with
  | nil => rfl
  | cons entry entries ih =>
    obtain ⟨k, values⟩ := entry
    rw [pushArg]
    by_cases hk : k = key
    · subst hk
      simp
    · have hne : key ≠ k := fun h => hk h.symm
      rw [if_neg hk, List.map_cons, List.map_cons, ih]
      by_cases hmem : key ∈ entries.map Prod.fst
      · rw [if_pos hmem, if_pos (List.mem_cons_of_mem _ hmem)]
      · have hmem' : key ∉ k :: entries.map Prod.fst := by
          intro h
          exact (List.mem_cons.mp h).elim hne hmem
        rw [if_neg hmem, if_neg hmem', List.cons_append]

/-- Every key has a value. -/
theorem filled_pushArg (key value : Bytes) {entries : List (Bytes × List Bytes)}
    (h : ∀ entry ∈ entries, entry.2 ≠ []) : ∀ entry ∈ pushArg key value entries, entry.2 ≠ [] := by
  induction entries with
  | nil =>
    intro entry hmem
    rw [List.mem_singleton.mp hmem]
    exact List.cons_ne_nil _ _
  | cons head entries ih =>
    obtain ⟨k, values⟩ := head
    intro entry hmem
    rw [pushArg] at hmem
    split_ifs at hmem
    · rcases List.mem_cons.mp hmem with rfl | hmem
      · exact List.append_ne_nil_of_right_ne_nil _ (List.cons_ne_nil _ _)
      · exact h _ (List.mem_cons_of_mem _ hmem)
    · rcases List.mem_cons.mp hmem with rfl | hmem
      · exact h _ List.mem_cons_self
      · exact ih (fun e he => h e (List.mem_cons_of_mem _ he)) _ hmem

/-- `request_args`: every key once, with at least one value. -/
structure RequestArgs where
  entries : List (Bytes × List Bytes)
  nodup : (entries.map Prod.fst).Nodup
  filled : ∀ entry ∈ entries, entry.2 ≠ []

namespace RequestArgs

def empty : RequestArgs := ⟨[], List.nodup_nil, fun _ h => absurd h List.not_mem_nil⟩

def AddRequestArg (key value : Bytes) (args : RequestArgs) : RequestArgs where
  entries := pushArg key value args.entries
  nodup := by
    rw [map_fst_pushArg]
    split_ifs with h
    · exact args.nodup
    · exact List.nodup_append.mpr ⟨args.nodup, List.nodup_singleton _, by
        intro k hk k' hk'
        rw [List.mem_singleton.mp hk']
        exact fun heq => h (heq ▸ hk)⟩
  filled := filled_pushArg key value args.filled

def HasArg (args : RequestArgs) (arg_name : Bytes) : Bool := (args.entries.lookup arg_name).isSome

def GetArgVector (args : RequestArgs) (arg_name : Bytes) : List Bytes :=
  (args.entries.lookup arg_name).getD []

/-- `ptr->at(0)`, where there is an entry. -/
def GetArg (args : RequestArgs) (arg_name : Bytes) : Except CppError Bytes :=
  match args.entries.lookup arg_name with
  | none => .ok []
  | some values => (values[0]?.map .ok).getD (.error .outOfRange)

end RequestArgs

/-- `HttpRequestConstructor::ParseArgs`. -/
def ParseArgs (data : Bytes) (args : RequestArgs) : Except RuntimeError RequestArgs :=
  ParseAndConsumeArgs data RequestArgs.AddRequestArg args

/-- What the constructor reads arguments from. -/
structure RequestText where
  /-- The query of the URL, if it has one. -/
  query : Option Bytes
  body : Bytes
  /-- The body is compressed, and to be decompressed. -/
  compressed : Bool
  parse_args_from_body : Bool

/-- The arguments `FinalizeImpl` parses; an exception makes the request end with `invalid args`. -/
def RequestText.parseArgs (request : RequestText) : Except RuntimeError RequestArgs := do
  let args ← match request.query with
    | some query => ParseArgs query .empty
    | none => .ok .empty
  if request.parse_args_from_body && !request.compressed then ParseArgs request.body args
  else return args

end SocialNetwork.Userver

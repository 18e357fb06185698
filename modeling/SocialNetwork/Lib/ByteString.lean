import Mathlib.Data.List.Basic
import Mathlib.Tactic.Basic

/-!
# Strings of bytes

A string that is a list of bytes may be a text in UTF-8 or not. `ByteString` tells the two apart, and
its values are exactly the lists of bytes (`bytes_ofBytes`, `ofBytes_bytes`).
-/

namespace Text

/-- The bytes of a text. -/
def utf8 (s : String) : List UInt8 := s.toByteArray.data.toList

/-- The text that has these bytes. -/
def decode? (bytes : List UInt8) : Option String := String.fromUTF8? ⟨bytes.toArray⟩

theorem decode?_utf8 (s : String) : decode? (utf8 s) = some s := by
  have hbytes : ByteArray.mk (utf8 s).toArray = s.toByteArray := by
    apply ByteArray.ext
    exact Array.toArray_toList
  unfold decode? String.fromUTF8?
  rw [hbytes, dif_pos s.isValidUTF8]
  rfl

/-- What is decoded is the encoding of its text. -/
theorem decode?_eq_some {bytes : List UInt8} {s : String} :
    decode? bytes = some s ↔ bytes = utf8 s := by
  constructor
  · intro h
    unfold decode? String.fromUTF8? at h
    split_ifs at h
    cases h
    rfl
  · rintro rfl
    exact decode?_utf8 s

/-- A string of bytes: a text, or bytes that are none. -/
inductive ByteString
  | text (s : String)
  | other (bytes : List UInt8) (h : decode? bytes = none)
deriving DecidableEq, Repr

namespace ByteString

instance : Coe String ByteString := ⟨text⟩

def bytes : ByteString → List UInt8
  | text s => utf8 s
  | other bytes _ => bytes

def text? : ByteString → Option String
  | text s => some s
  | other _ _ => none

@[simp] theorem text?_text (s : String) : (text s).text? = some s := rfl

/-- Its characters; where it is no text, each byte is one. -/
def chars : ByteString → List Char
  | text s => s.toList
  | other bytes _ => bytes.map fun b => Char.ofNat b.toNat

/-- The string of some bytes. -/
def ofBytes (bytes : List UInt8) : ByteString :=
  match h : decode? bytes with
  | some s => text s
  | none => other bytes h

theorem ofBytes_eq_text {bytes : List UInt8} {s : String} (h : decode? bytes = some s) :
    ofBytes bytes = text s := by
  unfold ofBytes
  split
  · next t ht => rw [Option.some.inj (ht.symm.trans h)]
  · next hnone => exact absurd (hnone.symm.trans h) nofun

theorem ofBytes_eq_other {bytes : List UInt8} (h : decode? bytes = none) :
    ofBytes bytes = other bytes h := by
  unfold ofBytes
  split
  · next s hs => exact absurd (h.symm.trans hs) nofun
  · rfl

@[simp] theorem ofBytes_utf8 (s : String) : ofBytes (utf8 s) = s := ofBytes_eq_text (decode?_utf8 s)

theorem bytes_ofBytes (bytes : List UInt8) : (ofBytes bytes).bytes = bytes := by
  cases h : decode? bytes with
  | some s =>
    rw [ofBytes_eq_text h]
    exact (decode?_eq_some.mp h).symm
  | none =>
    rw [ofBytes_eq_other h]
    rfl

/-- A string is that of its bytes. -/
theorem ofBytes_bytes (s : ByteString) : ofBytes s.bytes = s := by
  cases s with
  | text s => exact ofBytes_utf8 s
  | other bytes h => exact ofBytes_eq_other h

/-- Strings with the same bytes are equal. -/
theorem bytes_injective {s t : ByteString} (h : s.bytes = t.bytes) : s = t := by
  rw [← ofBytes_bytes s, h, ofBytes_bytes]

theorem bytes_ne_nil {s : ByteString} (hs : s ≠ "") : s.bytes ≠ [] :=
  fun hnil => hs (bytes_injective hnil)

end ByteString

end Text

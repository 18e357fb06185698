import SocialNetwork.Lib.ByteString

/-!
# JSON values of userver (`formats/json`)

What `FromString` makes of a body, and what `ToString` writes. The parser does not look at what the
bytes of a string are, so a string, and the name of a member, need be no text.
-/

namespace SocialNetwork.Userver

open Text (ByteString)

/-- A JSON value; a double is carried by its bits. -/
inductive Json
  | null
  | bool (b : Bool)
  | int (n : Int)
  | double (bits : BitVec 64)
  | str (s : ByteString)
  | arr (xs : List Json)
  | obj (fs : List (ByteString × Json))

namespace Json

mutual

/-- Equality is decided by structural recursion through arrays and objects. -/
def decEq : (a b : Json) → Decidable (a = b)
  | .null, .null => isTrue rfl
  | .bool x, .bool y => decidable_of_iff (x = y) (by simp)
  | .int x, .int y => decidable_of_iff (x = y) (by simp)
  | .double x, .double y => decidable_of_iff (x = y) (by simp)
  | .str x, .str y => decidable_of_iff (x = y) (by simp)
  | .arr xs, .arr ys => @decidable_of_iff _ (xs = ys) (by simp) (decEqList xs ys)
  | .obj fs, .obj gs => @decidable_of_iff _ (fs = gs) (by simp) (decEqFields fs gs)
  | .null, .bool _ | .null, .int _ | .null, .double _ | .null, .str _ | .null, .arr _
  | .null, .obj _ | .bool _, .null | .bool _, .int _ | .bool _, .double _ | .bool _, .str _
  | .bool _, .arr _ | .bool _, .obj _ | .int _, .null | .int _, .bool _ | .int _, .double _
  | .int _, .str _ | .int _, .arr _ | .int _, .obj _ | .double _, .null | .double _, .bool _
  | .double _, .int _ | .double _, .str _ | .double _, .arr _ | .double _, .obj _ | .str _, .null
  | .str _, .bool _ | .str _, .int _ | .str _, .double _ | .str _, .arr _ | .str _, .obj _
  | .arr _, .null | .arr _, .bool _ | .arr _, .int _ | .arr _, .double _ | .arr _, .str _
  | .arr _, .obj _ | .obj _, .null | .obj _, .bool _ | .obj _, .int _ | .obj _, .double _
  | .obj _, .str _ | .obj _, .arr _ => isFalse (by intro h; cases h)

def decEqList : (xs ys : List Json) → Decidable (xs = ys)
  | [], [] => isTrue rfl
  | [], _ :: _ => isFalse (by intro h; cases h)
  | _ :: _, [] => isFalse (by intro h; cases h)
  | x :: xs, y :: ys =>
    match decEq x y, decEqList xs ys with
    | isTrue h, isTrue hs => isTrue (by rw [h, hs])
    | isFalse h, _ => isFalse (by intro he; cases he; exact h rfl)
    | _, isFalse hs => isFalse (by intro he; cases he; exact hs rfl)

def decEqFields : (fs gs : List (ByteString × Json)) → Decidable (fs = gs)
  | [], [] => isTrue rfl
  | [], _ :: _ => isFalse (by intro h; cases h)
  | _ :: _, [] => isFalse (by intro h; cases h)
  | (f, v) :: fs, (g, w) :: gs =>
    match decEq v w, decEqFields fs gs with
    | isTrue h, isTrue hs =>
      if hf : f = g then isTrue (by rw [hf, h, hs]) else isFalse (by intro he; cases he; exact hf rfl)
    | isFalse h, _ => isFalse (by intro he; cases he; exact h rfl)
    | _, isFalse hs => isFalse (by intro he; cases he; exact hs rfl)

end

instance : DecidableEq Json := decEq

end Json

end SocialNetwork.Userver

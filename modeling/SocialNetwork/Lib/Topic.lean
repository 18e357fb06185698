import Mathlib.Data.List.Basic
import Mathlib.Tactic.Basic

/-!
# Topic routing

A routing key is a list of words separated by dots. In a binding key the word `*` stands for
exactly one word and the word `#` for any number of words.
-/

namespace Topic

/-- The words of a key. -/
def words (key : String) : List (List Char) := key.toList.splitOn '.'

/-- The words of a binding key match those of a routing key. -/
def wordsMatch : List (List Char) → List (List Char) → Bool
  | [], ks => ks.isEmpty
  | p :: ps, ks =>
    if p = ['#'] then ks.tails.any (wordsMatch ps)
    else
      match ks with
      | [] => false
      | k :: ks => (p = ['*'] || p = k) && wordsMatch ps ks

/-- A binding key matches a routing key. -/
def routes (binding key : String) : Bool := wordsMatch (words binding) (words key)

end Topic

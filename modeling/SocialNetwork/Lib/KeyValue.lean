import Mathlib.Data.List.Basic
import Mathlib.Data.List.Find
import Mathlib.Tactic.Basic

/-!
# A key-value store with expiry and cursors

Entries expire at a time; an expired entry is never read again. Every entry has a stamp, the
number of the write that stored it, and a tag that says for whom it was stored: both are history
and decide nothing.

A cursor (`Scan`) goes through the keys with a given beginning, page by page. It returns every
key whose entry was there when it began and is still there; of the others it may return any.
`Scan.Covers` says that a loop that deletes what the cursor returns has yet to delete an entry.
-/

namespace KeyValue

structure Entry (V T : Type) where
  key : String
  value : V
  /-- The time from which on the entry is gone. -/
  expires : Option Nat
  stamp : Nat
  stored_at : Nat
  tag : T

structure Store (V T : Type) where
  entries : List (Entry V T)
  /-- The stamp of the next entry. -/
  next : Nat

variable {V T : Type}

/-- An entry that has not expired. -/
def Entry.live (now : Nat) (e : Entry V T) : Bool :=
  match e.expires with
  | none => true
  | some t => now < t

/-- The key begins with this text. -/
def startsWith (beginning key : String) : Bool := beginning.toList.isPrefixOf key.toList

/-- Keys that begin with different characters. -/
theorem startsWith_of_head_ne {beginning key : String} {c c' : Char} {cs cs' : List Char}
    (h : beginning.toList = c :: cs) (h' : key.toList = c' :: cs') (hne : c ≠ c') :
    startsWith beginning key = false := by
  unfold startsWith
  rw [h, h', List.isPrefixOf_cons_cons, beq_false_of_ne hne, Bool.false_and]

theorem startsWith_append (beginning rest : String) : startsWith beginning (beginning ++ rest) = true := by
  unfold startsWith
  rw [String.toList_append, List.isPrefixOf_iff_prefix]
  exact List.prefix_append _ _

namespace Store

def empty : Store V T := ⟨[], 0⟩

/-- The live entry of a key. -/
def lookup (now : Nat) (key : String) (s : Store V T) : Option (Entry V T) :=
  s.entries.find? fun e => e.key = key && e.live now

/-- Delete a key. -/
def del (key : String) (s : Store V T) : Store V T :=
  { s with entries := s.entries.filter fun e => e.key ≠ key }

/-- Store a value under a key, in place of what was there. -/
def put (now : Nat) (key : String) (value : V) (ttl : Option Nat) (tag : T) (s : Store V T) :
    Store V T where
  entries := (s.del key).entries ++ [⟨key, value, ttl.map (now + ·), s.next, now, tag⟩]
  next := s.next + 1

/-- Change the entry of a key. -/
def change (key : String) (f : Entry V T → Entry V T) (s : Store V T) : Store V T :=
  { s with entries := s.entries.map fun e => if e.key = key then f e else e }

theorem mem_del {key : String} {s : Store V T} {e : Entry V T} :
    e ∈ (s.del key).entries ↔ e ∈ s.entries ∧ e.key ≠ key := by
  rw [del, List.mem_filter, decide_eq_true_eq]

/-- The new entry takes the place of the old one. -/
theorem mem_put {now : Nat} {key : String} {value : V} {ttl : Option Nat} {tag : T} {s : Store V T}
    {e : Entry V T} : e ∈ (s.put now key value ttl tag).entries ↔
      (e ∈ s.entries ∧ e.key ≠ key) ∨
        e = ⟨key, value, ttl.map (now + ·), s.next, now, tag⟩ := by
  rw [put, List.mem_append, mem_del, List.mem_singleton]

/-- An entry after a change is one that was there, or the changed one of the key. -/
theorem mem_change {key : String} {f : Entry V T → Entry V T} {s : Store V T} {e : Entry V T}
    (h : e ∈ (s.change key f).entries) :
    (e ∈ s.entries ∧ e.key ≠ key) ∨ ∃ x ∈ s.entries, x.key = key ∧ e = f x := by
  obtain ⟨x, hx, he⟩ := List.mem_map.mp h
  split_ifs at he with hkey
  · exact .inr ⟨x, hx, hkey, he.symm⟩
  · exact .inl ⟨he ▸ hx, he ▸ hkey⟩

/-! ### The entry of a key -/

/-- The entry of a key, live or not. -/
def entryOf (key : String) (s : Store V T) : Option (Entry V T) := s.entries.find? fun e => e.key = key

/-- An entry that is live whenever it is there is the one that is found. -/
theorem lookup_eq_entryOf {now : Nat} {key : String} {s : Store V T}
    (h : ∀ e ∈ s.entries, e.key = key → e.live now = true) : s.lookup now key = s.entryOf key := by
  unfold lookup entryOf
  apply List.find?_congr
  intro e he
  by_cases hkey : e.key = key
  · rw [h e he hkey, Bool.and_true]
  · simp [hkey]

theorem entryOf_del_of_ne {key key' : String} (h : key' ≠ key) (s : Store V T) :
    (s.del key).entryOf key' = s.entryOf key' := by
  unfold entryOf del
  rw [List.find?_filter]
  apply List.find?_congr
  intro e _
  by_cases hkey : e.key = key'
  · simp [hkey, h]
  · simp [hkey]

theorem entryOf_del_self (key : String) (s : Store V T) : (s.del key).entryOf key = none := by
  unfold entryOf
  rw [List.find?_eq_none]
  intro e he
  simpa using (mem_del.mp he).2

theorem entryOf_put_of_ne {now : Nat} {key key' : String} {value : V} {ttl : Option Nat} {tag : T}
    (h : key' ≠ key) (s : Store V T) : (s.put now key value ttl tag).entryOf key' = s.entryOf key' := by
  rw [← entryOf_del_of_ne h s]
  unfold entryOf put
  rw [List.find?_append, List.find?_singleton]
  simp [Ne.symm h]

theorem entryOf_put_self {now : Nat} {key : String} {value : V} {ttl : Option Nat} {tag : T}
    (s : Store V T) : (s.put now key value ttl tag).entryOf key =
      some ⟨key, value, ttl.map (now + ·), s.next, now, tag⟩ := by
  have hnone := entryOf_del_self key s
  unfold entryOf at hnone ⊢
  unfold put
  rw [List.find?_append, hnone, List.find?_singleton]
  simp

/-- A change that keeps the key changes the entry of its key only. -/
theorem entryOf_change {key key' : String} {f : Entry V T → Entry V T} (hf : ∀ e, (f e).key = e.key)
    (s : Store V T) : (s.change key f).entryOf key' =
      (s.entryOf key').map fun e => if key' = key then f e else e := by
  unfold entryOf change
  rw [List.find?_map]
  have hpred : ((fun e : Entry V T => decide (e.key = key')) ∘ fun e => if e.key = key then f e else e) =
      fun e => decide (e.key = key') := by
    funext e
    show decide ((if e.key = key then f e else e).key = key') = _
    split_ifs
    · rw [hf]
    · rfl
  rw [hpred]
  cases hfound : s.entries.find? fun e => decide (e.key = key') with
  | none => rfl
  | some e =>
    have hkey : e.key = key' := by
      have hp := List.find?_some hfound
      simpa using hp
    rw [Option.map_some, Option.map_some, hkey]

end Store

/-! ## Cursors -/

/-- The progress of a loop over a cursor: where it began, what the cursor has returned, what of
the last page the loop has not come to yet, and whether that page is the last one. -/
structure Scan where
  since : Nat
  returned : List String
  batch : List String
  last : Bool
deriving DecidableEq

namespace Scan

/-- Everything written so far is still to be scanned. -/
def begin_ (s : Store V T) : Scan := ⟨s.next, [], [], false⟩

/-- A page of keys comes in, the last one perhaps. -/
def page (sc : Scan) (keys : List String) (last : Bool) : Scan :=
  { sc with returned := sc.returned ++ keys, batch := keys, last := last }

def tail (sc : Scan) : Scan := { sc with batch := sc.batch.tail }

/-- The cursor may return these keys now. -/
def Admits (s : Store V T) (now : Nat) (beginning : String) (sc : Scan) (keys : List String)
    (last : Bool) : Prop :=
  (∀ key ∈ keys, startsWith beginning key = true ∧
    ∃ e ∈ s.entries, e.key = key ∧ e.live now = true) ∧
  (last = true → ∀ e ∈ s.entries, e.live now = true → startsWith beginning e.key = true →
    e.stamp < sc.since → e.key ∈ sc.returned ++ keys)

instance (s : Store V T) (now : Nat) (beginning : String) (sc : Scan) (keys : List String)
    (last : Bool) : Decidable (Admits s now beginning sc keys last) :=
  inferInstanceAs (Decidable (_ ∧ _))

/-- The loop has yet to delete the entry: it was there when the cursor began, and its key is in
the page at hand or has not been returned yet. -/
def Covers (sc : Scan) (e : Entry V T) : Prop :=
  e.stamp < sc.since ∧ (e.key ∈ sc.batch ∨ (sc.last = false ∧ e.key ∉ sc.returned))

/-- A cursor that begins covers every entry. -/
theorem covers_begin {s : Store V T} {e : Entry V T} (h : e.stamp < s.next) :
    (begin_ s).Covers e := ⟨h, .inr ⟨rfl, List.not_mem_nil⟩⟩

/-- A new page covers what the cursor covered. -/
theorem Covers.page {s : Store V T} {now : Nat} {beginning : String} {sc : Scan}
    {keys : List String} {last : Bool} (hadmits : Admits s now beginning sc keys last)
    (hbatch : sc.batch = []) {e : Entry V T} (he : e ∈ s.entries) (hlive : e.live now = true)
    (hkey : startsWith beginning e.key = true) (h : sc.Covers e) : (sc.page keys last).Covers e := by
  obtain ⟨hstamp, hbatch' | ⟨-, hreturned⟩⟩ := h
  · rw [hbatch] at hbatch'
    cases hbatch'
  · refine ⟨hstamp, ?_⟩
    by_cases hin : e.key ∈ keys
    · exact .inl hin
    · have hnot : e.key ∉ sc.returned ++ keys := by
        rw [List.mem_append, not_or]
        exact ⟨hreturned, hin⟩
      refine .inr ⟨?_, hnot⟩
      show last = false
      rw [← Bool.not_eq_true]
      exact fun hlast => hnot (hadmits.2 hlast e he hlive hkey hstamp)

/-- A deletion covers what the cursor covered and has not been deleted. -/
theorem Covers.tail {sc : Scan} {key : String} {batch : List String} (hbatch : sc.batch = key :: batch)
    {e : Entry V T} (hkey : e.key ≠ key) (h : sc.Covers e) : sc.tail.Covers e := by
  refine ⟨h.1, ?_⟩
  rcases h.2 with hin | hout
  · rw [hbatch] at hin
    show e.key ∈ sc.batch.tail ∨ _
    rw [hbatch]
    exact .inl ((List.mem_cons.mp hin).resolve_left hkey)
  · exact .inr hout

/-- At its end a loop covers nothing. -/
theorem not_covers_done {sc : Scan} (hbatch : sc.batch = []) (hlast : sc.last = true)
    (e : Entry V T) : ¬ sc.Covers e := by
  rintro ⟨-, hin | ⟨hnot, -⟩⟩
  · rw [hbatch] at hin
    cases hin
  · rw [hlast] at hnot
    cases hnot

end Scan

end KeyValue

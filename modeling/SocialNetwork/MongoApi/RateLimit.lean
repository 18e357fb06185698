import SocialNetwork.Lib.Text
import SocialNetwork.MongoApi.ServiceTheorems

/-!
# Requests that are counted

The system with a history: every request has a number, and every `INCR` that took effect is
recorded with the request, its IP, the time and the answer. Without the history it is the system
itself (`state_step`), so what is proved of the records holds of every run.
-/

namespace SocialNetwork.MongoApi

open DocStore KeyValue

/-! ## The history -/

/-- The window of a time, in milliseconds. -/
def windowOf (ms : Nat) : Nat := ms / (RATE_WINDOW * 1000)

/-- The IP of a request. -/
def Request.ip : Request → String
  | create_message _ client => client.getD "unknown"
  | _ => ""

/-- An `INCR` that took effect; its answer may be lost. -/
structure Count where
  id : Nat
  ip : String
  at_ : Nat
  current : Option Int
deriving DecidableEq

def Count.window (x : Count) : Nat := windowOf x.at_

/-- The world with its history: the next number of a request, the counts and the answers. -/
structure Traced where
  world : World
  next : Nat
  counts : List Count
  answers : List (Nat × Request × Except PyError Reply)

/-- What a step of a call adds to the counts. -/
def counted (l : Nat × Request) (now : Nat) :
    (c : Call) → Outcome → Option Scan ⊕ Except PyError c.Answer → List Count
  | .incr _, .ok _, .inr (.ok (current : Int)) => [⟨l.1, l.2.ip, now, some current⟩]
  | .incr _, .raises true _, _ => [⟨l.1, l.2.ip, now, none⟩]
  | _, _, _ => []

def tracer : Pool.Server (Nat × Request) Call Call.Answer PyError (Option Scan) Traced Outcome where
  fresh := none
  exec l c aux outcome s := (exec l.2 c aux outcome s.world).map fun x =>
    ({ s with world := x.1, counts := s.counts ++ counted l s.world.now c outcome x.2 }, x.2)

abbrev Tracing := Pool.Config Traced (Nat × Request) Call Call.Answer PyError Reply (Option Scan)

namespace Tracing

/-- The system without its history. -/
def state (t : Tracing) : State := t.forget Prod.snd Traced.world

def init (db : Db) : Tracing := ⟨⟨(State.init db).shared, 0, [], []⟩, []⟩

theorem records : Pool.Records Prod.snd Traced.world tracer server where
  fresh := rfl
  exec l c aux outcome s := by
    show Option.map _ (Option.map _ (exec l.2 c aux outcome s.world)) = exec l.2 c aux outcome s.world
    rw [Option.map_map]
    exact Option.map_id'

variable [Bson]

def step (t : Tracing) : Action → Option Tracing
  | .request r => some (Pool.spawn tracer (t.shared.next, r) (handle r)
      { t with shared := { t.shared with next := t.shared.next + 1 } })
  | .call i outcome => Pool.advance tracer i outcome t
  | .finish i =>
    (Pool.retire i t).map fun x =>
      { x.2.2 with shared :=
        { x.2.2.shared with
          world := { x.2.2.shared.world with
            answered := x.2.2.shared.world.answered ++ [(x.1.2, x.2.1)] }
          answers := x.2.2.shared.answers ++ [(x.1.1, x.1.2, x.2.1)] } }
  | .tick ms => some { t with shared :=
      { t.shared with world := { t.shared.world with now := t.shared.world.now + ms } } }

/-- A step with the history is a step of the system. -/
theorem state_step (t : Tracing) (a : Action) :
    (t.step a).map state = MongoApi.step t.state a := by
  cases a with
  | request r => exact congrArg some (records.spawn (t.shared.next, r) (handle r) _)
  | call i outcome => exact records.advance i outcome t
  | finish i =>
    have hretire := Pool.retire_forget (f := Prod.snd) (g := Traced.world) i t
    show Option.map state (Option.map _ (Pool.retire i t)) = Option.map _ (Pool.retire i t.state)
    rw [state, ← hretire, Option.map_map, Option.map_map]
    rfl
  | tick ms => rfl

/-- The runs of the system are those with a history, without it. -/
theorem exec_state (t : Tracing) (as : List Action) :
    (Runs.exec step t as).map state = Runs.exec MongoApi.step t.state as := by
  induction as generalizing t with
  | nil => rfl
  | cons a as ih =>
    rw [Runs.exec_cons, Runs.exec_cons, ← state_step]
    cases t.step a with
    | none => rfl
    | some t' => exact ih t'

end Tracing

/-! ## Keys -/

/-- A key of the rate limiter is one of an IP and a window. -/
theorem rateKey_inj {client client' : Option String} {window window' : Nat}
    (h : rateKey client window = rateKey client' window') :
    client.getD "unknown" = client'.getD "unknown" ∧ window = window' := by
  unfold rateKey at h
  have hlist := congrArg String.toList h
  simp only [String.toList_append, List.append_assoc] at hlist
  have hsep : ":".toList = [':'] := by decide
  rw [hsep] at hlist
  have hcolon : ∀ n : Nat, ':' ∉ (toString n).toList := Text.notMem_toString_nat (by decide)
  obtain ⟨hip, hwindow⟩ := Text.append_sep_inj (hcolon window) (hcolon window')
    (List.append_cancel_left (List.append_cancel_left (List.append_cancel_left hlist)))
  exact ⟨String.toList_injective hip, Text.toString_nat_injective (String.toList_injective hwindow)⟩

/-- No key of the rate limiter begins like a key of the cache. -/
theorem startsWith_rateKey {prefix_ : String} (h : prefix_ ∈ ["users:", "posts:", "stats:", "messages:"])
    (client : Option String) (window : Nat) : startsWith prefix_ (rateKey client window) = false := by
  have hrate : ∃ cs, (rateKey client window).toList = 'r' :: cs := by
    unfold rateKey
    simp only [String.toList_append]
    exact ⟨_, rfl⟩
  obtain ⟨cs, hcs⟩ := hrate
  simp only [List.mem_cons, List.not_mem_nil, or_false] at h
  rcases h with rfl | rfl | rfl | rfl
  · exact startsWith_of_head_ne (c := 'u') rfl hcs (by decide)
  · exact startsWith_of_head_ne (c := 'p') rfl hcs (by decide)
  · exact startsWith_of_head_ne (c := 's') rfl hcs (by decide)
  · exact startsWith_of_head_ne (c := 'm') rfl hcs (by decide)

end SocialNetwork.MongoApi

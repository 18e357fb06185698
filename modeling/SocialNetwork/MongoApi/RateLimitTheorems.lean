import SocialNetwork.MongoApi.RateLimit

/-!
# The rate limiter counts every request of a window once

The invariant says what the keys of the rate limiter hold: the number of counts of their IP and
window, as long as the window lasts. A key never expires before its window ends, because `EXPIRE` is
never early. From it follows which number each `INCR` answers, and from the protocol which requests
are refused.
-/

namespace SocialNetwork.MongoApi

open DocStore KeyValue

variable {db : Db} {w w' : World} {counts : List Count} {l : Nat × Request} {g : Ghost} {ω : Choice}

/-! ## Counts of an IP and a window -/

/-- The same address, in the same window. -/
def sameWindow (ip : String) (window : Nat) (x : Count) : Bool := x.ip = ip && x.window = window

/-- How many counts there are of an IP and a window. -/
def countOf (counts : List Count) (ip : String) (window : Nat) : Nat :=
  counts.countP (sameWindow ip window)

/-- Every answer is the number of counts of its IP and window up to it. -/
def Numbered (counts : List Count) : Prop :=
  ∀ before x after, counts = before ++ x :: after → ∀ current : Int, x.current = some current →
    current = (countOf before x.ip x.window : Int) + 1

theorem countOf_append (counts : List Count) (x : Count) (ip : String) (window : Nat) :
    countOf (counts ++ [x]) ip window =
      countOf counts ip window + if sameWindow ip window x then 1 else 0 := by
  unfold countOf
  rw [List.countP_append, List.countP_singleton]

/-- The next count has the next number. -/
theorem Numbered.append (h : Numbered counts) {x : Count}
    (hx : ∀ current : Int, x.current = some current →
      current = (countOf counts x.ip x.window : Int) + 1) :
    Numbered (counts ++ [x]) := by
  intro before y after heq current hcurrent
  rcases List.eq_nil_or_concat after with rfl | ⟨after', z, rfl⟩
  · obtain ⟨rfl, hy⟩ := List.append_inj' heq rfl
    cases hy
    exact hx current hcurrent
  · rw [List.concat_eq_append, ← List.cons_append, ← List.append_assoc] at heq
    exact h before y after' (List.append_inj' heq rfl).1 current hcurrent

/-! ## What Redis holds -/

/-- The keys of the rate limiter hold the counts of their IP and window, until the window ends. -/
structure HoldsCounts (w : World) (counts : List Count) : Prop where
  past : ∀ x ∈ counts, x.at_ ≤ w.now
  value : ∀ client window, windowOf w.now ≤ window →
    (w.redis.entryOf (rateKey client window)).map (·.value) =
      if countOf counts (client.getD "unknown") window = 0 then none
      else some (.int (countOf counts (client.getD "unknown") window))
  expires : ∀ e ∈ w.redis.entries, ∀ client window, e.key = rateKey client window →
    ∀ ms, e.expires = some ms → (window + 1) * (RATE_WINDOW * 1000) ≤ ms

theorem windowOf_le {ms ms' : Nat} (h : ms ≤ ms') : windowOf ms ≤ windowOf ms' :=
  Nat.div_le_div_right h

/-- The end of the window of a time is after it. -/
theorem lt_end_of_window (ms : Nat) : ms < (windowOf ms + 1) * (RATE_WINDOW * 1000) := by
  unfold windowOf RATE_WINDOW
  omega

/-- Time passes, and past windows stay past. -/
theorem HoldsCounts.tick (h : HoldsCounts w counts) (ms : Nat) :
    HoldsCounts { w with now := w.now + ms } counts where
  past x hx := (h.past x hx).trans (Nat.le_add_right _ _)
  value client window hwindow :=
    h.value client window ((windowOf_le (Nat.le_add_right _ _)).trans hwindow)
  expires := h.expires

/-- A change of Redis that leaves the keys of the rate limiter alone. -/
theorem HoldsCounts.of_entryOf (h : HoldsCounts w counts) (hnow : w'.now = w.now)
    (hentry : ∀ client window, w'.redis.entryOf (rateKey client window) =
      w.redis.entryOf (rateKey client window))
    (hmem : ∀ e ∈ w'.redis.entries, ∀ client window, e.key = rateKey client window →
      e ∈ w.redis.entries) : HoldsCounts w' counts where
  past := by
    rw [hnow]
    exact h.past
  value client window hwindow := by
    rw [hnow] at hwindow
    rw [hentry]
    exact h.value client window hwindow
  expires e he client window hkey :=
    h.expires e (hmem e he client window hkey) client window hkey

/-- A key of the cache is none of the rate limiter. -/
def IsRateKey (key : String) : Prop := ∃ client window, key = rateKey client window

/-- Other keys do not matter. -/
theorem HoldsCounts.put (h : HoldsCounts w counts) {key : String} (hkey : ¬ IsRateKey key)
    (value : Value) (ttl : Option Nat) (tag : Request) :
    HoldsCounts { w with redis := w.redis.put w.now key value ttl tag } counts := by
  have hne : ∀ client window, rateKey client window ≠ key :=
    fun client window heq => hkey ⟨client, window, heq.symm⟩
  refine h.of_entryOf rfl (fun client window => Store.entryOf_put_of_ne (hne client window) _) ?_
  intro e he client window he'
  rcases Store.mem_put.mp he with ⟨hold, -⟩ | rfl
  · exact hold
  · exact absurd he'.symm (hne client window)

theorem HoldsCounts.del (h : HoldsCounts w counts) {key : String} (hkey : ¬ IsRateKey key) :
    HoldsCounts { w with redis := w.redis.del key } counts := by
  have hne : ∀ client window, rateKey client window ≠ key :=
    fun client window heq => hkey ⟨client, window, heq.symm⟩
  refine h.of_entryOf rfl (fun client window => Store.entryOf_del_of_ne (hne client window) _) ?_
  exact fun e he _ _ _ => (Store.mem_del.mp he).1

/-- An `EXPIRE` of a key whose window has begun is not too early. -/
theorem HoldsCounts.renew (h : HoldsCounts w counts) {client : Option String} {window : Nat}
    (hwindow : window ≤ windowOf w.now) :
    HoldsCounts { w with
      redis := w.redis.change (rateKey client window) (renew w.now RATE_WINDOW) } counts := by
  have hkeep : ∀ e : Entry Value Request, (MongoApi.renew w.now RATE_WINDOW e).key = e.key ∧
      (MongoApi.renew w.now RATE_WINDOW e).value = e.value := by
    intro e
    unfold MongoApi.renew
    split_ifs <;> exact ⟨rfl, rfl⟩
  refine ⟨h.past, fun client' window' hwindow' => ?_, ?_⟩
  · rw [← h.value client' window' hwindow', Store.entryOf_change fun e => (hkeep e).1, Option.map_map]
    congr 1
    funext e
    show (if _ then _ else e).value = e.value
    split_ifs
    · exact (hkeep e).2
    · rfl
  · intro e he client' window' hkey ms hms
    rcases Store.mem_change he with ⟨hold, -⟩ | ⟨x, hx, hxkey, rfl⟩
    · exact h.expires e hold client' window' hkey ms hms
    · rw [(hkeep x).1] at hkey
      unfold MongoApi.renew at hms
      split_ifs at hms
      -- the key lives on for less than a window from now
      · have hsame : window' = window := (rateKey_inj (hkey.symm.trans hxkey)).2
        have hend := lt_end_of_window w.now
        rw [← Option.some.inj hms, hsame]
        unfold windowOf RATE_WINDOW at *
        omega
      · exact h.expires x hx client' window' hkey ms hms

/-! ## The steps of the limiter -/

/-- A key whose window has not ended has not expired. -/
theorem HoldsCounts.lookup (h : HoldsCounts w counts) (client : Option String) {window : Nat}
    (hwindow : windowOf w.now ≤ window) :
    w.redis.lookup w.now (rateKey client window) = w.redis.entryOf (rateKey client window) := by
  apply Store.lookup_eq_entryOf
  intro e he hkey
  unfold Entry.live
  cases hexpires : e.expires with
  | none => rfl
  | some ms =>
    have hlast := h.expires e he client window hkey ms hexpires
    have hend := lt_end_of_window w.now
    have hlive : w.now < ms := by
      unfold RATE_WINDOW at *
      omega
    exact decide_eq_true hlive

/-- Clients without an address share one key. -/
theorem rateKey_congr {client client' : Option String} (window : Nat)
    (h : client.getD "unknown" = client'.getD "unknown") :
    rateKey client window = rateKey client' window := by
  unfold rateKey
  rw [h]

/-- One more count, and its key holds the new number. -/
theorem HoldsCounts.add (h : HoldsCounts w counts) {client : Option String} {y : Count}
    {redis : Store Value Request} (hip : y.ip = client.getD "unknown") (hat : y.at_ = w.now)
    (hself : (redis.entryOf (rateKey client y.window)).map (·.value) =
      some (.int (countOf counts y.ip y.window + 1)))
    (hother : ∀ key, key ≠ rateKey client y.window → redis.entryOf key = w.redis.entryOf key)
    (hexpires : ∀ e ∈ redis.entries, e.expires = none ∨
      ∃ x ∈ w.redis.entries, x.key = e.key ∧ x.expires = e.expires) :
    HoldsCounts { w with redis := redis } (counts ++ [y]) where
  past := by
    intro x hx
    rcases List.mem_append.mp hx with hx | hx
    · exact h.past x hx
    · rw [List.mem_singleton.mp hx, hat]
  value client' window hwindow := by
    show (redis.entryOf (rateKey client' window)).map (·.value) = _
    rw [countOf_append]
    -- the key of this client and window, and the other keys
    by_cases hsame : client'.getD "unknown" = y.ip ∧ window = y.window
    · have hkey := rateKey_congr window (hsame.1.trans hip)
      have hcounts : sameWindow (client'.getD "unknown") window y = true := by
        simp [sameWindow, hsame]
      rw [hcounts, if_pos rfl, if_neg (Nat.succ_ne_zero _), hsame.1, hkey, hsame.2, hself]
      simp
    · have hkey : rateKey client' window ≠ rateKey client y.window := by
        intro heq
        have hinj := rateKey_inj heq
        exact hsame ⟨hinj.1.trans hip.symm, hinj.2⟩
      have hcounts : sameWindow (client'.getD "unknown") window y = false := by
        rw [← Bool.not_eq_true]
        intro hcounts
        unfold sameWindow at hcounts
        simp only [Bool.and_eq_true, decide_eq_true_eq] at hcounts
        exact hsame ⟨hcounts.1.symm, hcounts.2.symm⟩
      rw [hother _ hkey, hcounts]
      exact h.value client' window hwindow
  expires := by
    intro e he client' window hkey ms hms
    rcases hexpires e he with hnone | ⟨x, hx, hxkey, hxexpires⟩
    · rw [hnone] at hms
      cases hms
    · exact h.expires x hx client' window (hxkey.trans hkey) ms (hxexpires.trans hms)

/-- **The count.** An `INCR` answers the number of counts of its IP and window, with its own. -/
theorem HoldsCounts.incr (h : HoldsCounts w counts) {client : Option String} {r : Request}
    {x : Except PyError Int} {y : Count} (hip : y.ip = client.getD "unknown") (hat : y.at_ = w.now)
    (hx : execute ω r (.incr (rateKey client (windowOf w.now))) w = some (w', x)) :
    x = .ok (countOf counts y.ip y.window + 1 : Int) ∧ HoldsCounts w' (counts ++ [y]) := by
  have hwindow : windowOf w.now = y.window := by
    unfold Count.window
    rw [hat]
  have hvalue := h.value client y.window (le_of_eq hwindow)
  have hlookup := h.lookup client (le_of_eq hwindow)
  rw [← hip] at hvalue
  rw [hwindow] at hx
  simp only [execute] at hx
  rw [hlookup] at hx
  cases hentry : w.redis.entryOf (rateKey client y.window) with
  | none =>
    -- the first count of its window
    rw [hentry] at hx hvalue
    have hzero : countOf counts y.ip y.window = 0 := by
      by_contra hne
      rw [if_neg hne] at hvalue
      cases hvalue
    cases hx
    refine ⟨by rw [hzero]; rfl, h.add hip hat ?_ (fun key hkey => Store.entryOf_put_of_ne hkey _) ?_⟩
    · rw [Store.entryOf_put_self, hzero]
      rfl
    · intro e he
      rcases Store.mem_put.mp he with ⟨hold, -⟩ | rfl
      · exact .inr ⟨e, hold, rfl, rfl⟩
      · exact .inl rfl
  | some e =>
    rw [hentry] at hx hvalue
    have hint : e.value = .int (countOf counts y.ip y.window) := by
      split_ifs at hvalue
      · cases hvalue
      · exact Option.some.inj hvalue
    have hkeep : ∀ n : Int, ∀ x : Entry Value Request, (setValue (.int n) x).key = x.key :=
      fun n x => rfl
    simp only [hint] at hx
    cases hx
    refine ⟨rfl, h.add hip hat ?_ (fun key hkey => ?_) ?_⟩
    · rw [Store.entryOf_change (hkeep _), hentry, Option.map_some, Option.map_some, if_pos rfl]
      rfl
    · rw [Store.entryOf_change (hkeep _)]
      simp only [if_neg hkey, Option.map_id']
    · intro e' he'
      rcases Store.mem_change he' with ⟨hold, -⟩ | ⟨x, hx, -, rfl⟩
      · exact .inr ⟨e', hold, rfl, rfl⟩
      · exact .inr ⟨x, hx, rfl, rfl⟩

end SocialNetwork.MongoApi

import Mathlib.Data.List.Induction
import SocialNetwork.MongoApi.RateLimitRuns

/-!
# Exact admission

What follows from the numbers of the counts: how many of them pass in a window and in any 60
seconds, that the remaining number decreases, and that other IPs do not matter. `Limits` puts
this together with the answers of the requests.
-/

namespace SocialNetwork.MongoApi

open DocStore KeyValue

variable {counts : List Count} {x y : Count} {ip : String} {window : Nat}

/-! ## The numbers of the counts -/

/-- The limiter lets the request of the count pass. -/
def Count.passes (x : Count) : Bool :=
  match x.current with
  | some current => current ≤ RATE_LIMIT
  | none => false

theorem Numbered.of_append {added : List Count} (h : Numbered (counts ++ added)) : Numbered counts := by
  intro before x after heq current hcurrent
  refine h before x (after ++ added) ?_ current hcurrent
  rw [heq, List.append_assoc, List.cons_append]

theorem Numbered.last (h : Numbered (counts ++ [x])) {current : Int} (hx : x.current = some current) :
    current = (countOf counts x.ip x.window : Int) + 1 := h counts x [] rfl current hx

theorem countOf_le_append (counts added : List Count) (ip : String) (window : Nat) :
    countOf counts ip window ≤ countOf (counts ++ added) ip window := by
  unfold countOf
  rw [List.countP_append]
  exact Nat.le_add_right _ _

/-- How many counts of an IP and a window pass. -/
def passing (counts : List Count) (ip : String) (window : Nat) : Nat :=
  counts.countP fun x => sameWindow ip window x && x.passes

/-- Who passes was counted. -/
theorem passing_le_countOf (counts : List Count) (ip : String) (window : Nat) :
    passing counts ip window ≤ countOf counts ip window := by
  unfold passing countOf
  apply List.countP_mono_left
  intro x _ hx
  exact (Bool.and_eq_true _ _ ▸ hx).1

/-- **A window.** At most 10 requests of an IP pass in it. -/
theorem Numbered.passing_le (h : Numbered counts) (ip : String) (window : Nat) :
    passing counts ip window ≤ 10 := by
  induction counts using List.reverseRecOn with
  | nil => exact Nat.zero_le _
  | append_singleton counts x ih =>
    have hbefore := ih h.of_append
    have hsplit : passing (counts ++ [x]) ip window =
        passing counts ip window + if (sameWindow ip window x && x.passes) = true then 1 else 0 := by
      unfold passing
      rw [List.countP_append, List.countP_singleton]
    rw [hsplit]
    split_ifs with hx
    · -- it is one of the first ten of its window
      rw [Bool.and_eq_true] at hx
      obtain ⟨hsame, hpasses⟩ := hx
      unfold sameWindow at hsame
      rw [Bool.and_eq_true, decide_eq_true_eq, decide_eq_true_eq] at hsame
      unfold Count.passes at hpasses
      cases hcurrent : x.current with
      | none =>
        rw [hcurrent] at hpasses
        cases hpasses
      | some current =>
        rw [hcurrent] at hpasses
        have hlimit : current ≤ RATE_LIMIT := decide_eq_true_eq.mp hpasses
        have hnumber := h.last hcurrent
        rw [hsame.1, hsame.2] at hnumber
        have hle := passing_le_countOf counts ip window
        unfold RATE_LIMIT at hlimit
        omega
    · exact hbefore

/-- Sixty seconds lie in two windows. -/
theorem windowOf_of_mem_minute {from_ ms : Nat} (hfrom : from_ ≤ ms) (hto : ms < from_ + 60000) :
    windowOf ms = windowOf from_ ∨ windowOf ms = windowOf from_ + 1 := by
  unfold windowOf RATE_WINDOW
  omega

theorem countP_or_le {α : Type} (p q : α → Bool) (xs : List α) :
    (xs.countP fun x => p x || q x) ≤ xs.countP p + xs.countP q := by
  induction xs with
  | nil => exact Nat.zero_le _
  | cons x xs ih =>
    simp only [List.countP_cons]
    cases p x <;> cases q x <;> simp <;> omega

/-- How many counts of an IP pass in a minute that begins at a time. -/
def passingInMinute (counts : List Count) (ip : String) (from_ : Nat) : Nat :=
  counts.countP fun x => x.ip = ip && from_ ≤ x.at_ && x.at_ < from_ + 60000 && x.passes

/-- **Any 60 seconds.** At most 20 requests of an IP pass in them. -/
theorem Numbered.passingInMinute_le (h : Numbered counts) (ip : String) (from_ : Nat) :
    passingInMinute counts ip from_ ≤ 20 := by
  have hsplit : passingInMinute counts ip from_ ≤ counts.countP fun x =>
      (sameWindow ip (windowOf from_) x && x.passes) ||
        (sameWindow ip (windowOf from_ + 1) x && x.passes) := by
    unfold passingInMinute
    apply List.countP_mono_left
    intro x _ hx
    simp only [Bool.and_eq_true, decide_eq_true_eq] at hx
    obtain ⟨⟨⟨hip, hfrom⟩, hto⟩, hpasses⟩ := hx
    rcases windowOf_of_mem_minute hfrom hto with hwindow | hwindow
    · simp [sameWindow, Count.window, hip, hwindow, hpasses]
    · simp [sameWindow, Count.window, hip, hwindow, hpasses]
  have hor := countP_or_le (fun x => sameWindow ip (windowOf from_) x && x.passes)
    (fun x => sameWindow ip (windowOf from_ + 1) x && x.passes) counts
  have hfirst := h.passing_le ip (windowOf from_)
  have hsecond := h.passing_le ip (windowOf from_ + 1)
  unfold passing at hfirst hsecond
  omega

/-- **The remaining number.** It decreases from one request that passes to the next. -/
theorem Numbered.remaining_lt {before between after : List Count}
    (h : Numbered (before ++ x :: (between ++ y :: after))) (hip : y.ip = x.ip)
    (hwindow : y.window = x.window) {n m : Int} (hx : x.current = some n) (hy : y.current = some m)
    (hpasses : m ≤ RATE_LIMIT) : 0 ≤ remaining m ∧ remaining m < remaining n := by
  have hn := h before x (between ++ y :: after) rfl n hx
  have hm := h (before ++ x :: between) y after (by simp) m hy
  have hle : countOf before x.ip x.window + 1 ≤ countOf (before ++ x :: between) x.ip x.window := by
    have hself : sameWindow x.ip x.window x = true := by
      simp [sameWindow]
    have hone := countOf_append before x x.ip x.window
    rw [if_pos hself] at hone
    have hsplit : before ++ x :: between = before ++ [x] ++ between := List.append_cons _ _ _
    rw [← hone, hsplit]
    exact countOf_le_append _ _ _ _
  rw [hip, hwindow] at hm
  unfold remaining
  unfold RATE_LIMIT at *
  omega

/-! ## Other IPs -/

/-- What the counts of an IP are, but for their numbers: their windows, and whether the answer is
known. -/
def shape (counts : List Count) (ip : String) : List (Nat × Bool) :=
  (counts.filter fun x => x.ip = ip).map fun x => (x.window, x.current.isSome)

/-- The numbers that the counts of an IP got. -/
def numbers (counts : List Count) (ip : String) : List (Option Int) :=
  (counts.filter fun x => x.ip = ip).map (·.current)

/-- Counted by window, over the counts of one address. -/
theorem countOf_eq_count (counts : List Count) (ip : String) (window : Nat) :
    countOf counts ip window = ((shape counts ip).map Prod.fst).count window := by
  unfold countOf shape sameWindow
  rw [List.map_map, List.count, List.countP_map, List.countP_filter]
  apply List.countP_congr
  intro x _
  simp [and_comm]

/-- The number of the next count of an IP is a matter of its counts. -/
theorem numbers_append (counts : List Count) (x : Count) (ip : String) :
    numbers (counts ++ [x]) ip = numbers counts ip ++ if x.ip = ip then [x.current] else [] := by
  unfold numbers
  rw [List.filter_append, List.map_append]
  congr 1
  split_ifs with hip <;> simp [hip]

theorem shape_append (counts : List Count) (x : Count) (ip : String) :
    shape (counts ++ [x]) ip =
      shape counts ip ++ if x.ip = ip then [(x.window, x.current.isSome)] else [] := by
  unfold shape
  rw [List.filter_append, List.map_append]
  congr 1
  split_ifs with hip <;> simp [hip]

/-- The numbers that an IP gets that is alone, from the windows it has used. -/
def numbersOf : (used : List Nat) → List (Nat × Bool) → List (Option Int)
  | _, [] => []
  | used, (window, known) :: rest =>
    (if known then some (used.count window + 1 : Int) else none) :: numbersOf (used ++ [window]) rest

/-- The next number, if the counter answers. -/
theorem numbersOf_append (used : List Nat) (xs : List (Nat × Bool)) (window : Nat) (known : Bool) :
    numbersOf used (xs ++ [(window, known)]) = numbersOf used xs ++
      [if known then some ((used ++ xs.map Prod.fst).count window + 1 : Int) else none] := by
  induction xs generalizing used with
  | nil =>
    rw [List.map_nil, List.append_nil]
    rfl
  | cons x xs ih =>
    rw [List.cons_append, numbersOf, numbersOf, ih, List.map_cons, List.append_assoc]
    rfl

/-- **Isolation.** The counts of an IP get the numbers they would get if it were alone. -/
theorem Numbered.numbers_eq (h : Numbered counts) (ip : String) :
    numbers counts ip = numbersOf [] (shape counts ip) := by
  induction counts using List.reverseRecOn with
  | nil => rfl
  | append_singleton counts x ih =>
    have hbefore := ih h.of_append
    rw [numbers_append, shape_append]
    split_ifs with hip
    · have hnumber : x.current = if x.current.isSome = true then
          some (((shape counts ip).map Prod.fst).count x.window + 1 : Int) else none := by
        cases hcurrent : x.current with
        | none => rfl
        | some current =>
          have hlast := h.last hcurrent
          rw [hip, countOf_eq_count] at hlast
          exact congrArg some hlast
      rw [numbersOf_append, hbefore, List.nil_append, ← hnumber]
    · rw [List.append_nil, List.append_nil, hbefore]

/-! ## The answers -/

/-- The answer 429. -/
def Refused : Except PyError Reply → Prop
  | .error e => e.limited
  | .ok _ => False

section Answers

variable {t : Tracing} {id : Nat} {request : Request} {r : Except PyError Reply}

/-- What the limiter has done with a request whose `INCR` has answered. -/
theorem Answered.counted (h : Answered counts (id, request, r)) (hids : (counts.map (·.id)).Nodup)
    (hx : x ∈ counts) (hid : x.id = id) {current : Int} (hcurrent : x.current = some current) :
    x.ip = request.ip ∧ (Refused r ↔ RATE_LIMIT < current) := by
  obtain ⟨g, ⟨-, hended⟩, hagrees, hfailed⟩ := h
  unfold Agrees at hagrees
  cases hphase : g.phase with
  | counted window current' =>
    rw [hphase] at hagrees
    obtain ⟨x', hx', hid', hip, -, hcurrent'⟩ := hagrees
    -- a request is counted once, so this is its count
    have heq : x' = x := List.inj_on_of_nodup_map hids hx' hx (hid'.trans hid.symm)
    rw [heq] at hip hcurrent'
    have hsame : current' = current := Option.some.inj (hcurrent'.symm.trans hcurrent)
    have hlimited : g.limited ↔ RATE_LIMIT < current := by
      unfold Ghost.limited
      rw [hphase, hsame]
    refine ⟨hip, ?_⟩
    rw [← hlimited]
    cases r with
    | ok reply => exact iff_of_false (fun hr => hr) hended.1
    | error e =>
      rcases hended with ⟨he, hlow⟩ | hiff
      · exact iff_of_false (hfailed e he) hlow
      · exact hiff
  | lost =>
    rw [hphase] at hagrees
    have hnone := hagrees x hx hid
    rw [hcurrent] at hnone
    cases hnone
  | _ =>
    rw [hphase] at hagrees
    exact absurd hid (hagrees x hx)

/-- A request that is refused has been counted. -/
theorem Answered.of_refused (h : Answered counts (id, request, r)) (hr : Refused r) :
    ∃ x ∈ counts, x.id = id ∧ x.current.isSome = true := by
  obtain ⟨g, ⟨-, hended⟩, hagrees, hfailed⟩ := h
  cases r with
  | ok reply => exact False.elim hr
  | error e =>
    have hlimited : g.limited := by
      rcases hended with ⟨he, -⟩ | hiff
      · exact absurd hr (hfailed e he)
      · exact hiff.mp hr
    unfold Ghost.limited at hlimited
    unfold Agrees at hagrees
    cases hphase : g.phase with
    | counted window current =>
      rw [hphase] at hagrees
      obtain ⟨x, hx, hid, -, -, hcurrent⟩ := hagrees
      exact ⟨x, hx, hid, hcurrent ▸ rfl⟩
    | _ =>
      rw [hphase] at hlimited
      exact hlimited.elim

/-- A message that is created carries the headers of its count. -/
theorem Answered.created {message : MessageCreate} {client : Option String} {reply : Reply}
    (h : Answered counts (id, .create_message message client, .ok reply)) :
    ∃ x ∈ counts, x.id = id ∧ ∃ current, x.current = some current ∧
      reply.headers = rateHeaders x.window current := by
  obtain ⟨g, ⟨-, -, hheaders⟩, hagrees, -⟩ := h
  obtain ⟨window, current, hphase, hreply⟩ := hheaders message client rfl
  unfold Agrees at hagrees
  rw [hphase] at hagrees
  obtain ⟨x, hx, hid, -, hwindow, hcurrent⟩ := hagrees
  refine ⟨x, hx, hid, current, hcurrent, ?_⟩
  rw [hwindow]
  exact hreply

end Answers

/-! ## The promises of the limiter -/

/-- What the counts say of the requests that were let through. -/
structure Limits (t : Tracing) : Prop where
  /-- Every count is of another request. -/
  own : (t.shared.counts.map (·.id)).Nodup
  /-- A request whose `INCR` is answered gets 429 just if at least 10 requests of its IP have made
  theirs before it in the same window. -/
  refused : ∀ id request r, (id, request, r) ∈ t.shared.answers → ∀ before x after,
    t.shared.counts = before ++ x :: after → x.id = id → x.current.isSome = true →
      x.ip = request.ip ∧ (Refused r ↔ 10 ≤ countOf before request.ip x.window)
  /-- Nobody else gets 429. -/
  counted : ∀ id request r, (id, request, r) ∈ t.shared.answers → Refused r →
    ∃ x ∈ t.shared.counts, x.id = id ∧ x.current.isSome = true
  window : ∀ ip window, passing t.shared.counts ip window ≤ 10
  minute : ∀ ip from_, passingInMinute t.shared.counts ip from_ ≤ 20
  /-- A message that is created carries the remaining number of its count. -/
  headers : ∀ id message client reply,
    (id, .create_message message client, .ok reply) ∈ t.shared.answers →
      ∃ x ∈ t.shared.counts, x.id = id ∧ ∃ current, x.current = some current ∧
        reply.headers = rateHeaders x.window current
  /-- In the order of the `INCR`s of an IP and a window it decreases, and it is never negative. -/
  remaining : ∀ before x between y after,
    t.shared.counts = before ++ x :: (between ++ y :: after) → y.ip = x.ip → y.window = x.window →
      ∀ n m, x.current = some n → y.current = some m → m ≤ RATE_LIMIT →
        0 ≤ remaining m ∧ remaining m < remaining n
  /-- The numbers of an IP are those it would get alone. -/
  isolated : ∀ ip, numbers t.shared.counts ip = numbersOf [] (shape t.shared.counts ip)

/-- The key of the next `INCR` is that of the client and of the time. -/
def CountsNow (t : Tracing) : Action → Prop
  | .call i _ => t.tasks[i]?.all fun task =>
    match task.prog.head?, task.label.2 with
    | some (.incr key), .create_message _ client => key = rateKey client (windowOf t.shared.world.now)
    | some (.incr _), _ => false
    | _, _ => true
  | _ => True

instance (t : Tracing) : (a : Action) → Decidable (CountsNow t a)
  | .call _ _ => inferInstanceAs (Decidable (_ = true))
  | .request _ | .finish _ | .tick _ => inferInstanceAs (Decidable True)

/-- A count at the time it is made for is in its window. -/
theorem CountsNow.inWindow {t : Tracing} {a : Action} (h : CountsNow t a) : InWindow t a := by
  cases a with
  | call i outcome =>
    intro task htask key hkey
    simp only [CountsNow, htask, Option.all_some, hkey] at h
    cases hlabel : task.label.2 with
    | create_message message client =>
      simp only [hlabel] at h
      exact ⟨client, of_decide_eq_true h⟩
    | _ =>
      simp only [hlabel] at h
      cases h
  | _ => trivial

section

variable [Bson]

/-- The limits follow from the order of the counts. -/
theorem Tracing.Sound.limits {t : Tracing} (h : t.Sound) : Limits t where
  own := h.counts.1
  refused := by
    intro id request r ha before x after heq hid hsome
    have hx : x ∈ t.shared.counts := by
      rw [heq]
      exact List.mem_append_right _ List.mem_cons_self
    obtain ⟨current, hcurrent⟩ := Option.isSome_iff_exists.mp hsome
    obtain ⟨hip, hrefused⟩ := (h.answers _ ha).counted h.counts.1 hx hid hcurrent
    have hnumber := h.numbered before x after heq current hcurrent
    refine ⟨hip, ?_⟩
    rw [hrefused, ← hip]
    unfold RATE_LIMIT
    omega
  counted id request r ha hr := (h.answers _ ha).of_refused hr
  window := h.numbered.passing_le
  minute := h.numbered.passingInMinute_le
  headers id message client reply ha := (h.answers _ ha).created
  remaining := by
    intro before x between y after heq hip hwindow n m hn hm hle
    have hnumbered := h.numbered
    rw [heq] at hnumbered
    exact hnumbered.remaining_lt hip hwindow hn hm hle
  isolated := h.numbered.numbers_eq

/-- **Exact admission.** The limiter keeps its promises in every run whose requests read the clock
and count themselves in one window. Without its history, the run is one of the system. -/
theorem rate_limiter_exact {db : Db} {as : List Action} {t : Tracing}
    (hrun : Runs.exec Tracing.step (Tracing.init db) as = some t)
    (hwindow : Runs.Meets Tracing.step InWindow (Tracing.init db) as) :
    Limits t ∧ Runs.exec step (State.init db) as = some t.state := by
  have hsound : t.Sound := Runs.exec_invariant (fun t a t' h hok hstep => h.step hok hstep)
    (Tracing.sound_init db) hwindow hrun
  refine ⟨hsound.limits, ?_⟩
  have hstate := Tracing.exec_state (Tracing.init db) as
  rw [hrun] at hstate
  exact hstate.symm

end

open scoped Hex

/-- A message with ids that are refused, after so many calls. -/
def badMessage (ip : String) (calls : Nat) : List Action :=
  .request (.create_message ⟨"", "", ""⟩ (some ip)) ::
    (List.replicate calls (.call 0 (.ok ⟨.ofNat 0, [], [], false⟩)) ++ [.finish 0])

/-- After a minute, eleven messages of one IP and one of another. -/
def twelveMessages : List Action :=
  .tick 60000 :: (badMessage "::1" 3 ++ (List.replicate 10 (badMessage "::1" 2)).flatten ++
    badMessage "::2" 3)

/-- The eleventh gets 429, and the one of the other IP does not. -/
theorem rate_limiter_exact_eleven : ∃ t,
    Runs.exec Tracing.step (Tracing.init Db.empty) twelveMessages = some t ∧
    t.shared.counts.map (·.current) = [some 1, some 2, some 3, some 4, some 5, some 6, some 7, some 8,
      some 9, some 10, some 11, some 1] ∧
    t.shared.answers.drop 9 =
      [(9, .create_message ⟨"", "", ""⟩ (some "::1"), .error (.httpException 400 "Invalid ObjectId" [])),
        (10, .create_message ⟨"", "", ""⟩ (some "::1"),
          .error (.httpException 429 "Too Many Requests" (rateHeaders 1 11))),
        (11, .create_message ⟨"", "", ""⟩ (some "::2"),
          .error (.httpException 400 "Invalid ObjectId" []))] ∧
    Limits t := by
  have hcounts : (Runs.exec Tracing.step (Tracing.init Db.empty) twelveMessages).map
      (fun t => t.shared.counts.map (·.current)) = some [some 1, some 2, some 3, some 4, some 5, some 6,
        some 7, some 8, some 9, some 10, some 11, some 1] := by decide +kernel
  have hanswers : (Runs.exec Tracing.step (Tracing.init Db.empty) twelveMessages).map
      (fun t => t.shared.answers.drop 9) = some
      [(9, .create_message ⟨"", "", ""⟩ (some "::1"), .error (.httpException 400 "Invalid ObjectId" [])),
        (10, .create_message ⟨"", "", ""⟩ (some "::1"),
          .error (.httpException 429 "Too Many Requests" (rateHeaders 1 11))),
        (11, .create_message ⟨"", "", ""⟩ (some "::2"),
          .error (.httpException 400 "Invalid ObjectId" []))] := by decide +kernel
  have hmeets : Runs.Meets Tracing.step CountsNow (Tracing.init Db.empty) twelveMessages := by
    decide +kernel
  obtain ⟨t, hrun, ht⟩ := Option.map_eq_some_iff.mp hcounts
  rw [hrun] at hanswers
  refine ⟨t, hrun, ht, Option.some.inj hanswers, ?_⟩
  exact (rate_limiter_exact hrun (hmeets.mono fun _ _ h => h.inWindow)).1

end SocialNetwork.MongoApi

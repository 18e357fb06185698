import SocialNetwork.Lib.Like
import SocialNetwork.UserService.ListingTheorems

/-!
# The search by name

The listing looks for a name with `ILIKE '%' || $2 || '%'`, so the argument is part of a pattern:
`%`, `_` and the backslash do not stand for themselves. `Row.wanted` is what the search should
select, `Row.selected` what it does. They agree on a name without special characters, and on one
whose matches are too long for the columns.
-/

namespace SocialNetwork.UserService

open Relational
open Text (ByteString)
open ChatService (isInt32 arrayBody)

variable {lower : Char → Char} {login name : String}

/-! ## Patterns and substrings -/

/-- `ILIKE` folds the letters of the text and of the pattern. -/
def matchesILike (lower : Char → Char) (text pattern : String) : Bool :=
  ((Like.tokens (pattern.toList.map lower)).map fun ts =>
    Like.matches_ ts (text.toList.map lower)).getD false

/-- A substring, up to the case of letters. -/
def containsFolded (lower : Char → Char) (name text : String) : Bool :=
  name.toList.map lower <:+: text.toList.map lower

/-- The user has the login and a name that contains the text; an empty argument asks for nothing. -/
def Row.wanted (lower : Char → Char) (login name : ByteString) (row : Row) : Bool :=
  (login = "" || login = row.username) &&
    (name = "" || name.text?.any fun name => row.first_name.any (containsFolded lower name) ||
      row.last_name.any (containsFolded lower name))

/-- No character of the name has a meaning in a pattern. -/
def Plain (name : String) : Prop := ∀ c ∈ name.toList, c ∉ Like.specials

instance (name : String) : Decidable (Plain name) := List.decidableBAll _ _

/-- The tokens after the leading `%`. -/
def nameTokens (name : String) : List Like.Token := (Like.tokens (name.toList ++ ['%'])).getD []

/-- A shortest text that the search for a name finds. -/
def shortest (name : String) : List Char := Like.least (nameTokens name)

/-- A text that the search finds, and that a column holds: not the empty one. -/
def found (name : String) : List Char := if shortest name = [] then ['x'] else shortest name

theorem tokens_name (name : String) :
    Like.tokens (name.toList ++ ['%']) = some (nameTokens name) := by
  obtain ⟨ts, hts⟩ := Option.isSome_iff_exists.mp (Like.tokens_isSome name.toList)
  unfold nameTokens
  rw [hts]
  rfl

section Folded

variable (h : Like.CaseFold lower)

include h

/-- The pattern of a name: `%`, and the folded tokens of the name. -/
theorem matchesILike_name (text name : String) :
    matchesILike lower text ("%" ++ name ++ "%") =
      Like.matches_ (.many :: (nameTokens name).map (Like.Token.map lower))
        (text.toList.map lower) := by
  have hlist : ("%" ++ name ++ "%").toList = '%' :: (name.toList ++ ['%']) := by
    rw [String.toList_append, String.toList_append]
    rfl
  have htokens : Like.tokens ('%' :: (name.toList ++ ['%'])) = some (.many :: nameTokens name) := by
    rw [Like.tokens_cons (by decide), tokens_name]
    rfl
  unfold matchesILike
  rw [hlist, Like.tokens_map h, htokens]
  rfl

/-- **Plain names** are looked for as they are. -/
theorem matchesILike_plain (hname : Plain name) (text : String) :
    matchesILike lower text ("%" ++ name ++ "%") = containsFolded lower name text := by
  have hplain : ∀ c ∈ name.toList.map lower, c ∉ Like.specials := by
    intro c hc
    obtain ⟨d, hd, rfl⟩ := List.mem_map.mp hc
    exact h.other d (hname d hd)
  have htokens : Like.tokens (name.toList.map lower ++ ['%']) =
      some ((nameTokens name).map (Like.Token.map lower)) := by
    have hmap : name.toList.map lower ++ ['%'] = (name.toList ++ ['%']).map lower := by
      rw [List.map_append, List.map_singleton, h.special '%' (by decide)]
    rw [hmap, Like.tokens_map h, tokens_name]
    rfl
  rw [matchesILike_name h, Bool.eq_iff_iff, Like.matches_plain hplain htokens]
  exact decide_eq_true_iff.symm

/-- A shorter text is neither matched nor has the name in it. -/
theorem matchesILike_short {text : String} (hshort : text.length < (shortest name).length) :
    matchesILike lower text ("%" ++ name ++ "%") = containsFolded lower name text := by
  have hmatch : matchesILike lower text ("%" ++ name ++ "%") = false := by
    rw [matchesILike_name h, Bool.eq_false_iff]
    intro hmatch
    have hle := Like.length_least_le hmatch
    have hleast : (Like.least (.many :: (nameTokens name).map (Like.Token.map lower))).length =
        (shortest name).length := Like.length_least_map lower (nameTokens name)
    rw [hleast, List.length_map, String.length_toList] at hle
    omega
  have hcontains : containsFolded lower name text = false := by
    apply decide_eq_false
    intro hsub
    have hle := hsub.length_le
    have hname : (shortest name).length ≤ name.toList.length :=
      (Like.leastOf_tokens h (tokens_name name)).length
    rw [List.length_map, List.length_map, String.length_toList (s := text)] at hle
    omega
  rw [hmatch, hcontains]

end Folded

/-! ## A database of one user -/

/-- The only user, whose names are the text. -/
def Db.single (username text : String) (hu : username.length ≤ 50) (ht : nameOk text) : Db :=
  ((Db.empty.addUser ⟨1, username, "", ""⟩
    ⟨hu, Nat.zero_le _, List.not_mem_nil, List.not_mem_nil, List.not_mem_nil⟩).addProfile
      ⟨1, text, text⟩ ⟨ht, ht, List.mem_singleton_self _, List.not_mem_nil⟩)

section Single

variable {username text : String} {hu : username.length ≤ 50} {ht : nameOk text}

theorem Db.single_users :
    (Db.single username text hu ht).users.rows = [⟨1, username, "", ""⟩] := rfl

theorem Db.single_row (u : User) (hid : u.id = 1) :
    (Db.single username text hu ht).row u = ⟨1, u.username, some text, some text⟩ := by
  obtain ⟨id, name, email, password_hash⟩ := u
  subst hid
  rfl

theorem Db.single_hasProfile :
    ∀ u ∈ (Db.single username text hu ht).users.rows,
      (Db.single username text hu ht).hasProfile u := by
  intro u hmem
  rw [Db.single_users, List.mem_singleton] at hmem
  rw [hmem]
  exact List.mem_singleton_self _

end Single

/-! ## The search -/

/-- The listing selects the users that it should, in the order of their ids, and answers with them
if they can be read. -/
def SelectsLiterally (lower : Char → Char) (db : Db) (login name : ByteString) : Prop :=
  ∃ us : List User,
    us.Perm (db.users.rows.filter fun u => (db.row u).wanted lower login name) ∧
    (us.Pairwise fun u u' => u.id < u'.id) ∧
    db.selectUsers (matchesILike lower) login name = some (us.map db.row) ∧
    ∃ r, db.handle (matchesILike lower) (getRequest login name) [.ok] = some (db, r) ∧
      ((∀ u ∈ us, isInt32 u.id ∧ db.hasProfile u) →
        r = .ok ⟨.kOk, arrayBody (us.map fun u => item (db.row u))⟩)

/-- What is selected is what is wanted. -/
theorem selectsLiterally_of {db : Db} {login name : ByteString} (hsend : sendable login ∧ sendable name)
    (h : ∀ u ∈ db.users.rows,
      (db.row u).selected (matchesILike lower) login name = (db.row u).wanted lower login name) :
    SelectsLiterally lower db login name := by
  obtain ⟨r, hrun, hr⟩ := handle_getRequest (matchesILike lower) db login name
  have hselected : db.selected (matchesILike lower) login name =
      db.users.rows.filter fun u => (db.row u).wanted lower login name := List.filter_congr h
  refine ⟨db.sorted (matchesILike lower) login name, ?_, Db.sorted_pairwise,
    Db.selectUsers_eq hsend, r, hrun, ?_⟩
  · rw [← hselected]
    exact Db.sorted_perm
  · intro hread
    have hreadable : Readable (matchesILike lower) db login name :=
      fun u hu => hread u (Db.sorted_perm.mem_iff.mpr hu)
    rw [if_pos ⟨hsend, hreadable⟩] at hr
    exact hr

/-- The filters agree on a row if the search agrees on its names. -/
theorem selected_eq_wanted {row : Row}
    (h : ∀ text, text ∈ row.first_name ∨ text ∈ row.last_name →
      matchesILike lower text ("%" ++ name ++ "%") = containsFolded lower name text) :
    row.selected (matchesILike lower) login name = row.wanted lower login name := by
  have hany : ∀ column : Option String, (∀ text ∈ column,
      matchesILike lower text ("%" ++ name ++ "%") = containsFolded lower name text) →
      column.any (fun text => matchesILike lower text ("%" ++ name ++ "%")) =
        column.any (containsFolded lower name) := by
    intro column hcolumn
    cases column with
    | none => rfl
    | some text => exact hcolumn text rfl
  unfold Row.selected Row.wanted
  simp only [ByteString.text?_text, Option.any_some, hany row.first_name fun text ht => h text (.inl ht),
    hany row.last_name fun text ht => h text (.inr ht)]

/-- The columns of names are at most 100 characters wide. -/
theorem Db.length_name {db : Db} {u : User} {text : String}
    (h : text ∈ (db.row u).first_name ∨ text ∈ (db.row u).last_name) : text.length ≤ 100 := by
  have hname : ∀ column : Profile → String,
      (∀ p ∈ db.profiles.rows, (column p).length ≤ 100) →
      text ∈ (db.profiles.rows.find? fun p => decide (p.user_id = u.id)).map column →
      text.length ≤ 100 := by
    intro column hcolumn htext
    obtain ⟨p, hp, rfl⟩ := Option.map_eq_some_iff.mp htext
    exact hcolumn p (List.mem_of_find?_eq_some hp)
  rcases h with h | h
  · exact hname _ (fun p hp => (db.names_ok p hp).1.2) h
  · exact hname _ (fun p hp => (db.names_ok p hp).2.2) h

/-- A login that no column can hold selects nobody. -/
theorem selected_long_login {db : Db} {u : User} {name : ByteString} (hu : u ∈ db.users.rows)
    (hlong : 50 < login.length) :
    (db.row u).selected (matchesILike lower) login name = (db.row u).wanted lower login name := by
  have hlogin : (login : ByteString) ≠ "" := by
    intro heq
    rw [ByteString.text.inj heq] at hlong
    exact absurd hlong (by decide)
  have hne : (login : ByteString) ≠ (db.row u).username := by
    intro heq
    rw [ByteString.text.inj heq] at hlong
    exact absurd (db.username_ok u hu) (Nat.not_le.mpr hlong)
  unfold Row.selected Row.wanted
  rw [decide_eq_false hlogin, decide_eq_false hne]
  rfl

section Folded

variable (h : Like.CaseFold lower)

include h

theorem matchesILike_found (name : String) :
    matchesILike lower (String.ofList (found name)) ("%" ++ name ++ "%") = true := by
  rw [matchesILike_name h, Like.matches_many, String.toList_ofList]
  refine ⟨(shortest name).map lower, ?_, Like.matches_least lower (nameTokens name)⟩
  unfold found
  split_ifs with hnil
  · rw [hnil]
    exact List.nil_suffix
  · exact List.suffix_rfl

/-- What is found does not contain a name with a special character. -/
theorem not_containsFolded_found {c : Char} (hc : c ∈ name.toList) (hspecial : c ∈ Like.specials) :
    containsFolded lower name (String.ofList (found name)) = false := by
  apply decide_eq_false
  rw [String.toList_ofList]
  unfold found
  split_ifs with hnil
  · -- the name would be folded to that of a letter
    intro hsub
    have hmem : lower c ∈ [lower 'x'] := hsub.subset (List.mem_map_of_mem hc)
    rw [List.mem_singleton, h.special c hspecial] at hmem
    exact h.other 'x' (by decide) (hmem ▸ hspecial)
  · exact Like.not_infix_least h (tokens_name name) hc hspecial

/-- A name that is not plain selects a user whose name does not contain it. -/
theorem exists_unwanted (hname : ¬ Plain name) (hlogin : login.length ≤ 50)
    (hshort : (shortest name).length ≤ 100) :
    ∃ db : Db, (∀ u ∈ db.users.rows, db.hasProfile u) ∧
      (∃ u ∈ db.users.rows, (db.row u).selected (matchesILike lower) login name = true) ∧
      ∀ u ∈ db.users.rows, (db.row u).wanted lower login name = false := by
  obtain ⟨c, hc, hspecial⟩ : ∃ c ∈ name.toList, c ∈ Like.specials := by
    simpa only [Plain, not_forall, not_not, exists_prop] using hname
  have hne : name ≠ "" := by
    rintro rfl
    exact absurd hc List.not_mem_nil
  have hok : nameOk (String.ofList (found name)) := by
    unfold nameOk found
    rw [String.length_ofList]
    split_ifs with hnil
    · exact ⟨Nat.one_pos, by show 1 ≤ 100; omega⟩
    · exact ⟨List.length_pos_iff.mpr hnil, hshort⟩
  have hfound := matchesILike_found h name
  have hnot := not_containsFolded_found h hc hspecial
  refine ⟨Db.single login (String.ofList (found name)) hlogin hok, Db.single_hasProfile, ?_, ?_⟩
  · refine ⟨⟨1, login, "", ""⟩, List.mem_singleton_self _, ?_⟩
    rw [Db.single_row _ rfl]
    simp only [Row.selected, ByteString.text?_text, Option.any_some, hfound, decide_true, Bool.or_true,
      Bool.and_self]
  · intro u hu
    rw [Db.single_users, List.mem_singleton] at hu
    rw [hu, Db.single_row _ rfl]
    simp only [Row.wanted, ByteString.text?_text, ByteString.text.injEq, Option.any_some, hnot,
      decide_eq_false hne, Bool.or_false, Bool.and_false]

end Folded

/-- Every listing of users with profiles selects what it should. -/
def SearchIsLiteral (lower : Char → Char) (login name : ByteString) : Prop :=
  ∀ db : Db, (∀ u ∈ db.users.rows, db.hasProfile u) → SelectsLiterally lower db login name

/-- Arguments that the database does not take fail the listing. -/
theorem SearchIsLiteral.sendable {login name : ByteString} (h : SearchIsLiteral lower login name) :
    sendable login ∧ sendable name := by
  obtain ⟨us, -, -, hselect, -⟩ := h Db.empty nofun
  by_contra hsend
  rw [Db.selectUsers, if_neg hsend] at hselect
  cases hselect

/-- **The search by name.** Every listing selects the users whose name contains the argument just if
the database takes both arguments and the name is plain, no user can have the login, or no name is as
long as the shortest text that the pattern matches. -/
theorem name_search_literal_iff (h : Like.CaseFold lower) (login name : ByteString) :
    SearchIsLiteral lower login name ↔
      ∃ l n : String, login = l ∧ name = n ∧ (sendable l ∧ sendable n) ∧
        ((∀ c ∈ n.toList, c ∉ Like.specials) ∨ 50 < l.length ∨ 100 < (shortest n).length) := by
  constructor
  · intro hall
    have hsend := hall.sendable
    obtain ⟨l, rfl⟩ := exists_text hsend.1
    obtain ⟨n, rfl⟩ := exists_text hsend.2
    refine ⟨l, n, rfl, rfl, hsend, ?_⟩
    by_contra hcond
    simp only [not_or, Nat.not_lt] at hcond
    obtain ⟨hname, hlogin, hshort⟩ := hcond
    obtain ⟨db, hprofiles, ⟨u, hu, hselected⟩, hwanted⟩ := exists_unwanted h hname hlogin hshort
    obtain ⟨us, hperm, -, hselect, -⟩ := hall db hprofiles
    -- nobody is wanted, so nothing is listed
    have hnil : us = [] := by
      apply List.Perm.eq_nil
      rw [List.filter_eq_nil_iff.mpr fun u hu => by rw [hwanted u hu]; decide] at hperm
      exact hperm
    rw [hnil, Db.selectUsers_eq hsend] at hselect
    have hempty : db.sorted (matchesILike lower) l n = [] :=
      List.map_eq_nil_iff.mp (Option.some.inj hselect)
    have hmem : u ∈ db.sorted (matchesILike lower) l n :=
      Db.sorted_perm.mem_iff.mpr (List.mem_filter.mpr ⟨hu, hselected⟩)
    rw [hempty] at hmem
    cases hmem
  · rintro ⟨l, n, rfl, rfl, hsend, hcond⟩ db -
    apply selectsLiterally_of hsend
    intro u hu
    rcases hcond with hname | hlogin | hshort
    · exact selected_eq_wanted fun text _ => matchesILike_plain h hname text
    · exact selected_long_login hu hlogin
    · apply selected_eq_wanted
      intro text htext
      exact matchesILike_short h (Nat.lt_of_le_of_lt (Db.length_name htext) hshort)

/-! ## A name that is found, and one that stands for every name -/

/-- The folding of the Latin letters. -/
theorem caseFold_toLower : Like.CaseFold Char.toLower where
  special := by
    simp only [Like.specials, List.forall_mem_cons]
    exact ⟨by decide, by decide, by decide, fun c hc => absurd hc List.not_mem_nil⟩
  other := by
    intro c hc
    unfold Char.toLower
    split_ifs with hupper
    · -- a small letter
      have hlo : 65 ≤ c.val.toNat := UInt32.le_iff_toNat_le.mp hupper.1
      have hhi : c.val.toNat ≤ 90 := UInt32.le_iff_toNat_le.mp hupper.2
      have hsum : (c.val + ('a'.val - 'A'.val)).toNat = c.val.toNat + 32 := by
        rw [UInt32.toNat_add]
        have hshift : ('a'.val - 'A'.val).toNat = 32 := by decide
        rw [hshift]
        exact Nat.mod_eq_of_lt (by omega)
      have hne : ∀ d : Char, d.val.toNat < 97 → (c.val + ('a'.val - 'A'.val)) ≠ d.val := by
        rintro d hd heq
        rw [heq] at hsum
        omega
      simp only [Like.specials, List.mem_cons, List.not_mem_nil, or_false, Char.ext_iff, not_or]
      exact ⟨hne '%' (by decide), hne '_' (by decide), hne _ (by decide)⟩
    · exact hc

/-- The search for "ali" selects those whose name contains it. -/
theorem name_search_literal_iff_ali : SearchIsLiteral Char.toLower "" "ali" :=
  (name_search_literal_iff caseFold_toLower "" "ali").mpr
    ⟨"", "ali", rfl, rfl, by decide, .inl (of_decide_eq_true (p := Plain "ali") rfl)⟩

/-- Alice Smith is the only user. -/
def aliceSmith : Db :=
  (Db.empty.addUser ⟨1, "alice", "alice@example.com", "secret"⟩ (by decide)).addProfile
    ⟨1, "Alice", "Smith"⟩ (by decide)

/-- The search for "_" selects Alice Smith, and so does the one for "%"; her names contain
neither. -/
theorem underscore_selects_everyone :
    (∀ u ∈ aliceSmith.users.rows, aliceSmith.hasProfile u) ∧
      aliceSmith.selectUsers (matchesILike Char.toLower) "" "_" =
        some [⟨1, "alice", some "Alice", some "Smith"⟩] ∧
      ¬ SearchIsLiteral Char.toLower "" "_" ∧
      aliceSmith.selectUsers (matchesILike Char.toLower) "" "%" =
        some [⟨1, "alice", some "Alice", some "Smith"⟩] ∧
      ¬ SearchIsLiteral Char.toLower "" "%" := by
  have hprofiles : ∀ u ∈ aliceSmith.users.rows, aliceSmith.hasProfile u := by decide
  have hnot : ∀ name : ByteString,
      (aliceSmith.users.rows.filter fun u => (aliceSmith.row u).wanted Char.toLower "" name) = [] →
      aliceSmith.selectUsers (matchesILike Char.toLower) "" name =
        some [⟨1, "alice", some "Alice", some "Smith"⟩] →
      ¬ SearchIsLiteral Char.toLower "" name := by
    intro name hwanted hselect hall
    obtain ⟨us, hperm, -, hlisted, -⟩ := hall aliceSmith hprofiles
    rw [hwanted] at hperm
    rw [hperm.eq_nil, hselect] at hlisted
    cases hlisted
  have hunderscore : aliceSmith.selectUsers (matchesILike Char.toLower) "" "_" =
      some [⟨1, "alice", some "Alice", some "Smith"⟩] := by decide +kernel
  have hpercent : aliceSmith.selectUsers (matchesILike Char.toLower) "" "%" =
      some [⟨1, "alice", some "Alice", some "Smith"⟩] := by decide +kernel
  exact ⟨hprofiles, hunderscore, hnot "_" (by rfl) hunderscore, hpercent,
    hnot "%" (by rfl) hpercent⟩

end SocialNetwork.UserService

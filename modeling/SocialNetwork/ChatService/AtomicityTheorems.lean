import SocialNetwork.ChatService.DeliveryTheorems

/-!
# What a refused message leaves behind

One request alone, with an outcome for each of its statements. `Db.attempt` is a statement on the
database, `attempt_insertChat`, `attempt_insertMembers` and `attempt_insertMessage` say when it
takes effect. The statements are committed one by one: what the first of them has written stays
when a later one fails.
-/

namespace SocialNetwork.ChatService

open Text (ByteString)

/-! ## A statement with its outcome -/

def Db.attempt (c : SqlCall) (o : Outcome) (db : Db) : Option (Db × Except CppError c.Answer) :=
  match o with
  | .ok ω => db.execute ω c
  | .raises true ω => (db.execute ω c).map fun x => (x.1, .error .sqlError)
  | .raises false _ => some (db, .error .sqlError)

/-- The statement was executed. -/
def Outcome.applied : Outcome → Bool
  | ok _ => true
  | raises applied _ => applied

/-- The request got the statement's answer. -/
def Outcome.answers : Outcome → Bool
  | ok _ => true
  | raises _ _ => false

namespace Db

/-! ## When an insert takes effect -/

/-- The next chat has a new id. -/
def acceptsChat (db : Db) : Prop := db.chats_id_seq ∉ db.chats.rows.map Chat.id

/-- Both are users, and not the same one. -/
def acceptsMembers (db : Db) (from_ to_ : Int) : Prop :=
  from_ ∈ db.users ∧ to_ ∈ db.users ∧ from_ ≠ to_

/-- The sender is a user, the text is one that can be stored, and the next message has a new id. -/
def acceptsMessage (db : Db) (sender_id : Int) (content : ByteString) : Prop :=
  sender_id ∈ db.users ∧ contentOk content ∧ db.messages_id_seq ∉ db.messages.rows.map Message.id

instance (db : Db) : Decidable db.acceptsChat := inferInstanceAs (Decidable (_ ∉ _))

instance (db : Db) (from_ to_ : Int) : Decidable (db.acceptsMembers from_ to_) :=
  inferInstanceAs (Decidable (_ ∧ _))

instance (db : Db) (sender_id : Int) (content : ByteString) :
    Decidable (db.acceptsMessage sender_id content) := inferInstanceAs (Decidable (_ ∧ _))

variable {db db' : Db} {o : Outcome}

/-- One chat is new; what the later statements read is as it was. -/
structure ChatAdded (db db' : Db) : Prop where
  users : db'.users = db.users
  chats : db'.chats.rows = db.chats.rows ++ [⟨db.chats_id_seq, "private-chat", false⟩]
  chat_members : db'.chat_members.rows = db.chat_members.rows
  messages : db'.messages.rows = db.messages.rows
  messages_id_seq : db'.messages_id_seq = db.messages_id_seq

/-- Two members are new; what the last statement reads is as it was. -/
structure MembersAdded (db db' : Db) : Prop where
  users : db'.users = db.users
  chats : db'.chats.rows = db.chats.rows
  messages : db'.messages.rows = db.messages.rows
  messages_id_seq : db'.messages_id_seq = db.messages_id_seq

/-- A message is new, in a chat that was there. -/
structure MessageAdded (db db' : Db) : Prop where
  chats : db'.chats.rows = db.chats.rows
  messages : ∃ row, db'.messages.rows = db.messages.rows ++ [row]

/-- A chat that is accepted is the one new row. -/
theorem insertChat_eq (h : db.acceptsChat) :
    ∃ db₁, db.insertChat "private-chat" = (db₁, some db.chats_id_seq) ∧ db.ChatAdded db₁ := by
  have hok : titleOk "private-chat" ∧
      ((db.chats.rows ++ [(⟨db.chats_id_seq, "private-chat", false⟩ : Chat)]).map Chat.id).Nodup :=
    ⟨by decide, (db.chats.nodup_add_iff ⟨db.chats_id_seq, "private-chat", false⟩).mpr h⟩
  unfold insertChat
  rw [dif_pos hok]
  exact ⟨_, rfl, rfl, rfl, rfl, rfl, rfl⟩

theorem insertChat_refused (h : ¬ db.acceptsChat) :
    ∃ db₁, db.insertChat "private-chat" = (db₁, none) := by
  unfold insertChat
  rw [dif_neg fun hok => h
    ((db.chats.nodup_add_iff ⟨db.chats_id_seq, "private-chat", false⟩).mp hok.2)]
  exact ⟨_, rfl⟩

/-- A new chat takes two members that are two users. -/
theorem insertMembers_eq {chat_id from_ to_ : Int} (hchat : chat_id ∈ db.chats.rows.map Chat.id)
    (hnew : chat_id ∉ db.chat_members.rows.map ChatMember.chat_id)
    (h : db.acceptsMembers from_ to_) :
    ∃ db₁, db.insertMembers chat_id from_ to_ = (db₁, some ()) ∧ db.MembersAdded db₁ := by
  have hkeys : ((db.chat_members.rows ++
      [(⟨chat_id, from_⟩ : ChatMember), ⟨chat_id, to_⟩]).map ChatMember.key).Nodup := by
    rw [List.map_append, List.nodup_append]
    refine ⟨db.chat_members.nodup, ?_, ?_⟩
    · have hne := h.2.2
      simpa [ChatMember.key] using hne
    · intro a ha b hb hab
      -- a member with the key of a new one would be in the new chat already
      have hchat_id : b.1 = chat_id := by
        simp only [List.map_cons, List.map_nil, List.mem_cons, List.not_mem_nil, or_false,
          ChatMember.key] at hb
        rcases hb with rfl | rfl <;> rfl
      obtain ⟨x, hx, rfl⟩ := List.mem_map.mp ha
      refine hnew (List.mem_map.mpr ⟨x, hx, ?_⟩)
      rw [← hchat_id, ← hab]
      rfl
  unfold insertMembers
  rw [dif_pos ⟨⟨hchat, h.1, h.2.1⟩, hkeys⟩]
  exact ⟨_, rfl, rfl, rfl, rfl, rfl⟩

theorem insertMembers_refused (chat_id : Int) {from_ to_ : Int} (h : ¬ db.acceptsMembers from_ to_) :
    db.insertMembers chat_id from_ to_ = (db, none) := by
  unfold insertMembers
  rw [dif_neg]
  rintro ⟨⟨-, hfrom, hto⟩, hkeys⟩
  refine h ⟨hfrom, hto, ?_⟩
  rintro rfl
  rw [List.map_append, List.nodup_append] at hkeys
  simp [ChatMember.key] at hkeys

theorem insertMessage_eq (now : Int) {chat_id sender_id : Int} {content : ByteString}
    (hchat : chat_id ∈ db.chats.rows.map Chat.id) (h : db.acceptsMessage sender_id content) :
    ∃ db₁, db.insertMessage chat_id sender_id content now = (db₁, some db.messages_id_seq) ∧
      db.MessageAdded db₁ := by
  have hok : (chat_id ∈ db.chats.rows.map Chat.id ∧ sender_id ∈ db.users ∧ contentOk content) ∧
      ((db.messages.rows ++
        [(⟨db.messages_id_seq, chat_id, sender_id, content, now⟩ : Message)]).map Message.id).Nodup :=
    ⟨⟨hchat, h.1, h.2.1⟩, (db.messages.nodup_add_iff
      ⟨db.messages_id_seq, chat_id, sender_id, content, now⟩).mpr h.2.2⟩
  unfold insertMessage
  rw [dif_pos hok]
  exact ⟨_, rfl, rfl, _, rfl⟩

theorem MessageAdded.not_sameRows (h : db.MessageAdded db') : ¬ db.SameRows db' := by
  intro hsame
  obtain ⟨row, hrow⟩ := h.messages
  have hlength := congrArg List.length (hsame.messages.symm.trans hrow)
  simp only [List.length_append, List.length_singleton] at hlength
  omega

theorem insertMessage_refused (chat_id now : Int) {sender_id : Int} {content : ByteString}
    (h : ¬ db.acceptsMessage sender_id content) :
    ∃ db₁, db.insertMessage chat_id sender_id content now = (db₁, none) := by
  unfold insertMessage
  rw [dif_neg fun hok => h ⟨hok.1.2.1, hok.1.2.2, (db.messages.nodup_add_iff
    ⟨db.messages_id_seq, chat_id, sender_id, content, now⟩).mp hok.2⟩]
  exact ⟨_, rfl⟩

end Db

/-! ## A statement that takes effect, or not -/

section Attempt

variable {db db' : Db} {c : SqlCall} {o : Outcome} {r : Except CppError c.Answer}

theorem applied_of_answers (ho : o.answers = true) : o.applied = true := by
  cases o with
  | ok ω => rfl
  | raises b ω => cases ho

/-- A statement that does not answer raises. -/
theorem attempt_error (ho : o.answers = false) (h : db.attempt c o = some (db', r)) :
    r = .error .sqlError := by
  rcases o with ω | ⟨_ | _, ω⟩
  · cases ho
  · cases h
    rfl
  · obtain ⟨x, -, hx⟩ := Option.map_eq_some_iff.mp h
    cases hx
    rfl

/-- A statement that was not executed has no effect. -/
theorem attempt_unapplied (ho : o.applied = false) (h : db.attempt c o = some (db', r)) :
    db' = db ∧ r = .error .sqlError := by
  rcases o with ω | ⟨_ | _, ω⟩
  · cases ho
  · cases h
    exact ⟨rfl, rfl⟩
  · cases ho

/-- A statement that was executed has its effect, and answers or raises. -/
theorem attempt_applied (ho : o.applied = true) (h : db.attempt c o = some (db', r)) :
    ∃ ω y, db.execute ω c = some (db', y) ∧ (o.answers = true → r = y) := by
  rcases o with ω | ⟨_ | _, ω⟩
  · exact ⟨ω, r, h, fun _ => rfl⟩
  · cases ho
  · obtain ⟨x, hx, he⟩ := Option.map_eq_some_iff.mp h
    cases he
    exact ⟨ω, x.2, hx, fun hans => nomatch hans⟩

/-- A statement that reads leaves the database as it was. -/
theorem attempt_select {from_ to_ : Int} {r : Except CppError (Option Int)}
    (h : db.attempt (.selectChat from_ to_) o = some (db', r)) : db' = db := by
  by_cases ho : o.applied = true
  · obtain ⟨ω, y, hexec, -⟩ := attempt_applied ho h
    simp only [Db.execute] at hexec
    split_ifs at hexec
    · cases hexec
      rfl
    · obtain ⟨id, -, hx⟩ := Option.map_eq_some_iff.mp hexec
      cases hx
      rfl
  · exact (attempt_unapplied (Bool.not_eq_true _ ▸ ho) h).1

theorem attempt_selectMessages {user_id : Int} {r : Except CppError (List Message)}
    (h : db.attempt (.selectMessages user_id) o = some (db', r)) : db' = db := by
  by_cases ho : o.applied = true
  · obtain ⟨ω, y, hexec, -⟩ := attempt_applied ho h
    simp only [Db.execute] at hexec
    split_ifs at hexec
    cases hexec
    rfl
  · exact (attempt_unapplied (Bool.not_eq_true _ ▸ ho) h).1

end Attempt

section Insert

variable {db db' : Db} {o : Outcome}

/-- An insert that was executed and is accepted. -/
theorem attempt_accepted {c : SqlCall} {r : Except CppError c.Answer} {a : c.Answer}
    {P : Db → Prop} (ho : o.applied = true)
    (hexec : ∀ ω, ∃ db₁, db.execute ω c = some (db₁, .ok a) ∧ P db₁)
    (h : db.attempt c o = some (db', r)) :
    P db' ∧ r = if o.answers then .ok a else .error .sqlError := by
  obtain ⟨ω, y, hy, hans⟩ := attempt_applied ho h
  obtain ⟨db₁, hdb₁, hP⟩ := hexec ω
  obtain ⟨rfl, rfl⟩ := Prod.mk.inj (Option.some.inj (hdb₁.symm.trans hy))
  refine ⟨hP, ?_⟩
  split_ifs with ha
  · exact hans ha
  · exact attempt_error (Bool.not_eq_true _ ▸ ha) h

/-- An insert that was not executed or is refused. -/
theorem attempt_refused {c : SqlCall} {r : Except CppError c.Answer}
    (hexec : o.applied = true → ∀ ω, ∃ db₁, db.execute ω c = some (db₁, .error .sqlError) ∧
      db.SameRows db₁)
    (h : db.attempt c o = some (db', r)) : db.SameRows db' ∧ r = .error .sqlError := by
  by_cases ho : o.applied = true
  · obtain ⟨ω, y, hy, hans⟩ := attempt_applied ho h
    obtain ⟨db₁, hdb₁, hsame⟩ := hexec ho ω
    obtain ⟨rfl, rfl⟩ := Prod.mk.inj (Option.some.inj (hdb₁.symm.trans hy))
    refine ⟨hsame, ?_⟩
    by_cases ha : o.answers = true
    · exact hans ha
    · exact attempt_error (Bool.not_eq_true _ ▸ ha) h
  · obtain ⟨rfl, hr⟩ := attempt_unapplied (Bool.not_eq_true _ ▸ ho) h
    exact ⟨sameRows_refl _, hr⟩

/-- `INSERT INTO chats`. -/
theorem attempt_insertChat {r : Except CppError Int}
    (h : db.attempt (.insertChat "private-chat") o = some (db', r)) :
    if o.applied = true ∧ db.acceptsChat then
      db.ChatAdded db' ∧ r = if o.answers then .ok db.chats_id_seq else .error .sqlError
    else db.SameRows db' ∧ r = .error .sqlError := by
  by_cases happ : o.applied = true ∧ db.acceptsChat
  · rw [if_pos happ]
    refine attempt_accepted (c := .insertChat "private-chat") (a := db.chats_id_seq)
      (P := db.ChatAdded) happ.1 (fun ω => ?_) h
    obtain ⟨db₁, hins, hadded⟩ := Db.insertChat_eq happ.2
    exact ⟨db₁, by simp only [Db.execute, hins], hadded⟩
  · rw [if_neg happ]
    refine attempt_refused (fun ho ω => ?_) h
    obtain ⟨db₁, hins⟩ := Db.insertChat_refused fun hacc => happ ⟨ho, hacc⟩
    exact ⟨db₁, by simp only [Db.execute, hins], Db.insertChat_none hins⟩

/-- `INSERT INTO chat_members`, into a new chat. -/
theorem attempt_insertMembers {chat_id from_ to_ : Int} {r : Except CppError Unit}
    (hchat : chat_id ∈ db.chats.rows.map Chat.id)
    (hnew : chat_id ∉ db.chat_members.rows.map ChatMember.chat_id)
    (h : db.attempt (.insertMembers chat_id from_ to_) o = some (db', r)) :
    if o.applied = true ∧ db.acceptsMembers from_ to_ then
      db.MembersAdded db' ∧ r = if o.answers then .ok () else .error .sqlError
    else db.SameRows db' ∧ r = .error .sqlError := by
  by_cases happ : o.applied = true ∧ db.acceptsMembers from_ to_
  · rw [if_pos happ]
    refine attempt_accepted (c := .insertMembers chat_id from_ to_) (a := ())
      (P := db.MembersAdded) happ.1 (fun ω => ?_) h
    obtain ⟨db₁, hins, hadded⟩ := Db.insertMembers_eq hchat hnew happ.2
    exact ⟨db₁, by simp only [Db.execute, hins], hadded⟩
  · rw [if_neg happ]
    refine attempt_refused (fun ho ω => ?_) h
    have hins := Db.insertMembers_refused chat_id fun hacc => happ ⟨ho, hacc⟩
    exact ⟨db, by simp only [Db.execute, hins], sameRows_refl _⟩

/-- `INSERT INTO messages`, into a chat that is there. -/
theorem attempt_insertMessage {chat_id sender_id : Int} {content : ByteString} {r : Except CppError Int}
    (hchat : chat_id ∈ db.chats.rows.map Chat.id)
    (h : db.attempt (.insertMessage chat_id sender_id content) o = some (db', r)) :
    if o.applied = true ∧ db.acceptsMessage sender_id content then
      db.MessageAdded db' ∧ r = if o.answers then .ok db.messages_id_seq else .error .sqlError
    else db.SameRows db' ∧ r = .error .sqlError := by
  by_cases happ : o.applied = true ∧ db.acceptsMessage sender_id content
  · rw [if_pos happ]
    refine attempt_accepted (c := .insertMessage chat_id sender_id content)
      (a := db.messages_id_seq) (P := db.MessageAdded) happ.1 (fun ω => ?_) h
    obtain ⟨db₁, hins, hadded⟩ := Db.insertMessage_eq ω.now hchat happ.2
    exact ⟨db₁, by simp only [Db.execute, hins], hadded⟩
  · rw [if_neg happ]
    refine attempt_refused (fun ho ω => ?_) h
    obtain ⟨db₁, hins⟩ := Db.insertMessage_refused chat_id ω.now fun hacc => happ ⟨ho, hacc⟩
    exact ⟨db₁, by simp only [Db.execute, hins], Db.insertMessage_none hins⟩

end Insert

/-! ## The statements of a message -/

/-- The answer is 201. -/
def Created (r : Except CppError Response) : Prop :=
  ∃ response, r = .ok response ∧ response.status = .kCreated

theorem not_created_error {e : CppError} : ¬ Created (.error e) := fun h => nomatch h.choose_spec.1

section Store

variable {db db' : Db} {p : Post} {outcomes : List Outcome} {r : Except CppError Response}

/-- The message is stored in a chat that is there. -/
def storeMessage (p : Post) (chat_id : Int) : Cpp Response := do
  let msg_res : Int ← Prog.perform (SqlCall.insertMessage chat_id p.from_ p.text)
  let message_id ← asRowInt msg_res
  pure (created message_id chat_id p.from_ p.text)

/-- A message is answered with 201 if it is stored, the answer arrives and its id fits; and the
rows stay what they were if it is not stored. -/
theorem storeMessage_run {chat_id : Int} (hchat : chat_id ∈ db.chats.rows.map Chat.id)
    (h : (storeMessage p chat_id).run Db.attempt outcomes db = some (db', r)) :
    ∃ o, outcomes = [o] ∧
      (Created r ↔ o.answers = true ∧ db.acceptsMessage p.from_ p.text ∧
        isInt32 db.messages_id_seq) ∧
      (db.SameRows db' ↔ ¬ (o.applied = true ∧ db.acceptsMessage p.from_ p.text)) ∧
      db'.chats.rows = db.chats.rows := by
  obtain ⟨o, rest, db₁, x, rfl, hattempt, hrest⟩ := Prog.run_perform_bind.mp h
  have hinsert := attempt_insertMessage hchat hattempt
  refine ⟨o, ?_⟩
  split_ifs at hinsert with happ hans
  · -- the row is added and the request goes on with its id
    obtain ⟨hadded, rfl⟩ := hinsert
    have hnot := hadded.not_sameRows
    simp only [asRowInt_bind] at hrest
    split_ifs at hrest with hfits
    · obtain ⟨rfl, hx⟩ := Prog.run_ret.mp hrest
      cases hx
      exact ⟨rfl, iff_of_true ⟨_, rfl, rfl⟩ ⟨hans, happ.2, hfits⟩,
        iff_of_false hnot (not_not.mpr happ), hadded.chats⟩
    · obtain ⟨rfl, hx⟩ := Prog.run_raise.mp hrest
      cases hx
      exact ⟨rfl, iff_of_false not_created_error fun hall => hfits hall.2.2,
        iff_of_false hnot (not_not.mpr happ), hadded.chats⟩
  · -- the row is added and the request does not learn of it
    obtain ⟨hadded, rfl⟩ := hinsert
    have hnot := hadded.not_sameRows
    obtain ⟨rfl, hx⟩ := hrest
    cases hx
    exact ⟨rfl, iff_of_false not_created_error fun hall => hans hall.1,
      iff_of_false hnot (not_not.mpr happ), hadded.chats⟩
  · obtain ⟨hsame, rfl⟩ := hinsert
    obtain ⟨rfl, hx⟩ := hrest
    cases hx
    exact ⟨rfl, iff_of_false not_created_error fun hall => happ ⟨applied_of_answers hall.1, hall.2.1⟩,
      iff_of_true hsame happ, hsame.chats⟩

/-- A new chat gets its members and its message. -/
def fillChat (p : Post) (chat_id : Int) : Cpp Response := do
  Prog.perform (SqlCall.insertMembers chat_id p.from_ p.to_)
  storeMessage p chat_id

/-- A message in a new chat is answered with 201 if every statement is accepted and answered; the
chat is there in any case. -/
theorem fillChat_run {chat_id : Int} (hchat : chat_id ∈ db.chats.rows.map Chat.id)
    (hnew : chat_id ∉ db.chat_members.rows.map ChatMember.chat_id)
    (h : (fillChat p chat_id).run Db.attempt outcomes db = some (db', r)) :
    (Created r ↔ (∀ o ∈ outcomes, o.answers = true) ∧ db.acceptsMembers p.from_ p.to_ ∧
        db.acceptsMessage p.from_ p.text ∧ isInt32 db.messages_id_seq) ∧
      db'.chats.rows = db.chats.rows := by
  obtain ⟨o, rest, db₁, x, rfl, hattempt, hrest⟩ := Prog.run_perform_bind.mp h
  have hinsert := attempt_insertMembers hchat hnew hattempt
  simp only [List.forall_mem_cons]
  split_ifs at hinsert with happ hans
  · obtain ⟨hadded, rfl⟩ := hinsert
    have hchat₁ : chat_id ∈ db₁.chats.rows.map Chat.id := by
      rw [hadded.chats]
      exact hchat
    obtain ⟨o₂, rfl, hcreated, -, hchats⟩ := storeMessage_run hchat₁ hrest
    -- the last statement reads what it would have read before
    have haccepts : db₁.acceptsMessage p.from_ p.text ↔ db.acceptsMessage p.from_ p.text := by
      unfold Db.acceptsMessage
      rw [hadded.users, hadded.messages, hadded.messages_id_seq]
    rw [hcreated, haccepts, hadded.messages_id_seq]
    refine ⟨?_, hchats.trans hadded.chats⟩
    have hrest : (∀ o' ∈ [o₂], o'.answers = true) ↔ o₂.answers = true := List.forall_mem_singleton
    rw [hrest]
    tauto
  · obtain ⟨hadded, rfl⟩ := hinsert
    obtain ⟨rfl, hx⟩ := hrest
    cases hx
    exact ⟨iff_of_false not_created_error fun hall => hans hall.1.1, hadded.chats⟩
  · obtain ⟨hsame, rfl⟩ := hinsert
    obtain ⟨rfl, hx⟩ := hrest
    cases hx
    exact ⟨iff_of_false not_created_error fun hall => happ ⟨applied_of_answers hall.1.1, hall.2.1⟩,
      hsame.chats⟩

end Store

/-- Reading the messages of a user writes nothing. -/
theorem getMessages_run {db db' : Db} {user_id : Int} {outcomes : List Outcome}
    {r : Except CppError Response}
    (h : (getMessages user_id).run Db.attempt outcomes db = some (db', r)) : db' = db := by
  have hitems : ∀ (rows : List Message) rest db₁,
      (items rows >>= fun arr => pure ⟨.kOk, arrayBody arr⟩ : Cpp Response).run Db.attempt rest db₁ =
        some (db', r) → db' = db₁ := by
    intro rows rest db₁ hrest
    rw [items_eq] at hrest
    split_ifs at hrest
    · obtain ⟨-, hx⟩ := Prog.run_ret.mp hrest
      exact congrArg Prod.fst hx
    · obtain ⟨-, hx⟩ := Prog.run_raise.mp hrest
      exact congrArg Prod.fst hx
  obtain ⟨o, rest, db₁, x, -, hattempt, hrest⟩ := Prog.run_perform_bind.mp h
  have hsame : db₁ = db := attempt_selectMessages hattempt
  rw [← hsame]
  cases x with
  | error e => exact congrArg Prod.fst hrest.2
  | ok rows => exact hitems rows rest db₁ hrest

/-! ## All or nothing -/

/-- The first insert of the message has no effect, or all that follows it succeeds. -/
def AllOrNothing (db : Db) (p : Post) : List Outcome → Prop
  | .ok _ :: o :: outcomes =>
    if db.selectChat p.from_ p.to_ = [] then
      o.applied = true ∧ db.acceptsChat →
        (∀ o' ∈ o :: outcomes, o'.answers = true) ∧ isInt32 db.chats_id_seq ∧
          db.acceptsMembers p.from_ p.to_ ∧ db.acceptsMessage p.from_ p.text ∧
          isInt32 db.messages_id_seq
    else
      o.applied = true ∧ db.acceptsMessage p.from_ p.text →
        o.answers = true ∧ isInt32 db.messages_id_seq
  | _ => True

/-- `postMessage`, by what the lookup finds. -/
theorem postMessage_eq (p : Post) : postMessage p =
    Prog.perform (SqlCall.selectChat p.from_ p.to_) >>= fun chat_res : Option Int =>
      match chat_res with
      | none => Prog.perform (SqlCall.insertChat "private-chat") >>= fun chat_id : Int =>
        asRowInt chat_id >>= fillChat p
      | some chat_id => asRowInt chat_id >>= storeMessage p := by
  unfold postMessage
  refine congrArg (Prog.bind (Prog.perform (SqlCall.selectChat p.from_ p.to_))) ?_
  funext chat_res
  cases chat_res with
  | none => rfl
  | some chat_id => rfl

/-- A message whose chat is there. -/
theorem found_run {db db' : Db} {p : Post} {outcomes : List Outcome}
    {r : Except CppError Response} {chat_id : Int} (hchat : chat_id ∈ db.chats.rows.map Chat.id)
    (h : (asRowInt chat_id >>= storeMessage p).run Db.attempt outcomes db = some (db', r)) :
    (¬ Created r → db.SameRows db') ↔
      ∀ o rest, outcomes = o :: rest →
        o.applied = true ∧ db.acceptsMessage p.from_ p.text →
          o.answers = true ∧ isInt32 db.messages_id_seq := by
  rw [asRowInt_bind] at h
  split_ifs at h with hfits
  · obtain ⟨o, rfl, hcreated, hsame, -⟩ := storeMessage_run hchat h
    rw [hcreated, hsame]
    constructor
    · rintro hkeep o' rest heq
      cases heq
      tauto
    · intro hkeep
      have ho := hkeep o [] rfl
      tauto
  · obtain ⟨rfl, hx⟩ := Prog.run_raise.mp h
    cases hx
    exact iff_of_true (fun _ => sameRows_refl _) fun o rest heq => nomatch heq

/-- A message whose chat is not there. -/
theorem missing_run {db db' : Db} {p : Post} {outcomes : List Outcome}
    {r : Except CppError Response}
    (h : (Prog.perform (SqlCall.insertChat "private-chat") >>= fun chat_id : Int =>
      asRowInt chat_id >>= fillChat p).run Db.attempt outcomes db = some (db', r)) :
    ∃ o rest, outcomes = o :: rest ∧
      ((¬ Created r → db.SameRows db') ↔
        (o.applied = true ∧ db.acceptsChat →
          (∀ o' ∈ o :: rest, o'.answers = true) ∧ isInt32 db.chats_id_seq ∧
            db.acceptsMembers p.from_ p.to_ ∧ db.acceptsMessage p.from_ p.text ∧
            isInt32 db.messages_id_seq)) := by
  obtain ⟨o, rest, db₁, x, rfl, hattempt, hrest⟩ := Prog.run_perform_bind.mp h
  have hinsert := attempt_insertChat hattempt
  refine ⟨o, rest, rfl, ?_⟩
  simp only [List.forall_mem_cons]
  -- once the chat is there, the rows are not what they were
  have hnot : db.ChatAdded db₁ → db'.chats.rows = db₁.chats.rows → ¬ db.SameRows db' := by
    intro hadded hchats hsame
    have hlength := congrArg List.length (hsame.chats.symm.trans (hchats.trans hadded.chats))
    simp only [List.length_append, List.length_singleton] at hlength
    omega
  split_ifs at hinsert with happ hans
  · obtain ⟨hadded, rfl⟩ := hinsert
    have hrun : (asRowInt db.chats_id_seq >>= fillChat p).run Db.attempt rest db₁ =
        some (db', r) := hrest
    rw [asRowInt_bind] at hrun
    split_ifs at hrun with hfits
    · have hchat : db.chats_id_seq ∈ db₁.chats.rows.map Chat.id := by
        rw [hadded.chats, List.map_append]
        exact List.mem_append_right _ (List.mem_singleton_self _)
      have hnew : db.chats_id_seq ∉ db₁.chat_members.rows.map ChatMember.chat_id := by
        rw [hadded.chat_members]
        intro hmem
        obtain ⟨member, hmember, hid⟩ := List.mem_map.mp hmem
        exact happ.2 (hid ▸ db.member_chat member hmember)
      obtain ⟨hcreated, hchats⟩ := fillChat_run hchat hnew hrun
      have hmembers : db₁.acceptsMembers p.from_ p.to_ ↔ db.acceptsMembers p.from_ p.to_ := by
        unfold Db.acceptsMembers
        rw [hadded.users]
      have hmessage : db₁.acceptsMessage p.from_ p.text ↔ db.acceptsMessage p.from_ p.text := by
        unfold Db.acceptsMessage
        rw [hadded.users, hadded.messages, hadded.messages_id_seq]
      have hno := hnot hadded hchats
      rw [hcreated, hmembers, hmessage, hadded.messages_id_seq]
      tauto
    · obtain ⟨rfl, hx⟩ := Prog.run_raise.mp hrun
      cases hx
      have hno := hnot hadded rfl
      have hcreated : ¬ Created (.error .narrowingOverflow) := not_created_error
      tauto
  · obtain ⟨hadded, rfl⟩ := hinsert
    obtain ⟨rfl, hx⟩ := hrest
    cases hx
    have hno := hnot hadded rfl
    have hcreated : ¬ Created (.error .sqlError) := not_created_error
    tauto
  · obtain ⟨hsame, rfl⟩ := hinsert
    obtain ⟨rfl, hx⟩ := hrest
    cases hx
    tauto

/-- **All or nothing.** A request that is not answered with 201 leaves the rows as they were, just
if it posts no message, or its first insert has no effect, or all that follows that succeeds. -/
theorem all_or_nothing_iff {request : Request} {db db' : Db} {outcomes : List Outcome}
    {r : Except CppError Response}
    (hrun : (HandleRequestThrow request).run Db.attempt outcomes db = some (db', r)) :
    (¬ Created r → db.SameRows db') ↔ ∀ p, request.post? = some p → AllOrNothing db p outcomes := by
  cases hp : request.post? with
  | some p =>
    rw [handle_post hp, postMessage_eq] at hrun
    have hiff : (∀ p', some p = some p' → AllOrNothing db p' outcomes) ↔
        AllOrNothing db p outcomes := by
      constructor
      · exact fun h => h p rfl
      · intro h p' heq
        rw [← Option.some.inj heq]
        exact h
    rw [hiff]
    obtain ⟨o, rest, db₁, x, rfl, hattempt, hrest⟩ := Prog.run_perform_bind.mp hrun
    by_cases hans : o.answers = true
    · obtain ⟨ω, rfl⟩ : ∃ ω, o = .ok ω := by
        cases o with
        | ok ω => exact ⟨ω, rfl⟩
        | raises applied ω => cases hans
      have hselect : db.execute ω (.selectChat p.from_ p.to_) = some (db₁, x) := hattempt
      simp only [Db.execute] at hselect
      by_cases hnil : db.selectChat p.from_ p.to_ = []
      · rw [if_pos hnil] at hselect
        cases hselect
        obtain ⟨o, rest, rfl, hkept⟩ := missing_run hrest
        rw [hkept]
        simp only [AllOrNothing, if_pos hnil]
      · rw [if_neg hnil] at hselect
        obtain ⟨chat_id, hpick, hx⟩ := Option.map_eq_some_iff.mp hselect
        cases hx
        have hchat : chat_id ∈ db.chats.rows.map Chat.id := by
          obtain ⟨⟨c, hc, hid, -⟩, -⟩ := Db.mem_selectChat.mp (List.mem_of_getElem? hpick)
          exact List.mem_map.mpr ⟨c, hc, hid⟩
        rw [found_run hchat hrest]
        cases rest with
        | nil => exact iff_of_true (fun o rest heq => absurd heq.symm (List.cons_ne_nil o rest)) trivial
        | cons o rest =>
          simp only [AllOrNothing, if_neg hnil]
          constructor
          · exact fun h => h o rest rfl
          · rintro h o' rest' heq
            cases heq
            exact h
    · -- the lookup raises, and nothing has been written
      rw [attempt_error (Bool.not_eq_true _ ▸ hans) hattempt] at hrest
      obtain ⟨rfl, hx⟩ := hrest
      have hsame : db₁ = db := attempt_select hattempt
      cases hx
      rw [hsame]
      refine iff_of_true (fun _ => sameRows_refl _) ?_
      unfold AllOrNothing
      split
      · next heq => cases heq
      · trivial
  | none =>
    refine iff_of_true (fun _ => ?_) fun p h => absurd h.symm (Option.some_ne_none p)
    cases hg : request.get? with
    | some user_id =>
      rw [handle_get hg] at hrun
      rw [getMessages_run hrun]
      exact sameRows_refl _
    | none =>
      rcases handle_other hp hg with ⟨e, he⟩ | ⟨response, hresponse, -⟩
      · rw [he] at hrun
        obtain ⟨-, hx⟩ := Prog.run_raise.mp hrun
        cases hx
        exact sameRows_refl _
      · rw [hresponse] at hrun
        obtain ⟨-, hx⟩ := Prog.run_ret.mp hrun
        cases hx
        exact sameRows_refl _

/-- The first message of two users opens their chat; the next one has no text, is refused by its
`CHECK`, and leaves the chat with the one message. -/
theorem all_or_nothing_iff_refused :
    ∃ db r db' r', (HandleRequestThrow (postRequest 1 2 "hello")).run Db.attempt
        [.ok ⟨0, 0, []⟩, .ok ⟨0, 0, []⟩, .ok ⟨0, 0, []⟩, .ok ⟨0, 0, []⟩] (Db.withUsers [1, 2]) =
          some (db, r) ∧
      (HandleRequestThrow (postRequest 1 2 "")).run Db.attempt
        [.ok ⟨0, 0, []⟩, .ok ⟨0, 0, []⟩] db = some (db', r') ∧
      Created r ∧ db.messages.rows = [⟨1, 1, 1, "hello", 0⟩] ∧ ¬ Created r' ∧ db.SameRows db' := by
  have hfirst : ((HandleRequestThrow (postRequest 1 2 "hello")).run Db.attempt
      [.ok ⟨0, 0, []⟩, .ok ⟨0, 0, []⟩, .ok ⟨0, 0, []⟩, .ok ⟨0, 0, []⟩] (Db.withUsers [1, 2])).map
      (fun x => (x.1.messages.rows, x.1.selectChat 1 2, x.2,
        ((HandleRequestThrow (postRequest 1 2 "")).run Db.attempt
          [.ok ⟨0, 0, []⟩, .ok ⟨0, 0, []⟩] x.1).map Prod.snd)) =
      some ([⟨1, 1, 1, "hello", 0⟩], [1], .ok (created 1 1 1 "hello"),
        some (.error .sqlError)) := by rfl
  obtain ⟨⟨db, r⟩, hrun, hx⟩ := Option.map_eq_some_iff.mp hfirst
  simp only [Prod.mk.injEq] at hx
  obtain ⟨hrows, hchat, rfl, hsecond⟩ := hx
  obtain ⟨⟨db', r'⟩, hrun', rfl⟩ := Option.map_eq_some_iff.mp hsecond
  refine ⟨db, _, db', _, hrun, hrun', ⟨_, rfl, rfl⟩, hrows, not_created_error, ?_⟩
  refine (all_or_nothing_iff hrun').mpr (fun p hp => ?_) not_created_error
  obtain rfl : (⟨1, 2, ""⟩ : Post) = p := Option.some.inj (Eq.trans (by decide) hp)
  -- their chat is found, and the first insert is the one that the `CHECK` refuses
  have hfound : db.selectChat 1 2 ≠ [] := hchat ▸ List.cons_ne_nil 1 []
  simp only [AllOrNothing, if_neg hfound]
  exact fun haccepts => absurd haccepts.2.2.1.1 (Nat.lt_irrefl 0)

/-- A message to a user that does not exist is refused, and leaves its chat behind. -/
theorem unknown_receiver_leaves_a_chat :
    ∃ db' r, (HandleRequestThrow (postRequest 1 99 "hello")).run Db.attempt
        [.ok ⟨0, 0, []⟩, .ok ⟨0, 0, []⟩, .ok ⟨0, 0, []⟩] (Db.withUsers [1, 2]) = some (db', r) ∧
      ¬ Created r ∧ ¬ (Db.withUsers [1, 2]).SameRows db' := by
  have hrun : ((HandleRequestThrow (postRequest 1 99 "hello")).run Db.attempt
      [.ok ⟨0, 0, []⟩, .ok ⟨0, 0, []⟩, .ok ⟨0, 0, []⟩] (Db.withUsers [1, 2])).map (fun x =>
        (x.1.chats.rows.length, x.2)) = some (1, .error .sqlError) := by rfl
  obtain ⟨⟨db', r⟩, hrun, hx⟩ := Option.map_eq_some_iff.mp hrun
  simp only [Prod.mk.injEq] at hx
  obtain ⟨hlength, rfl⟩ := hx
  refine ⟨db', _, hrun, not_created_error, fun hsame => ?_⟩
  rw [hsame.chats] at hlength
  cases hlength

end SocialNetwork.ChatService

import SweetCrust.Chat.Conversations
import SweetCrust.Lib.Runs

/-!
# Unread counters and unread messages

A conversation counts the messages that its customer, and the bakery, have not read.  The
services that share the tables do not agree on who reads what: opening a conversation in the
store-ops service marks *every* message as read that is not of one's own role, but clears one
counter only.  On the bakery's side that takes unread messages of the assistant and of the
system along, which the customer has not read; on the shop's side, unread messages of the role
`customer`.  And the checkout service counts messages of that role only.

* `Counted` — the counters are right.
* `unread_counted_iff` — they are right along a run exactly when no call on the conversation does
  any of the three.
-/

namespace SweetCrust

open Tabular Session Runs

namespace Chat

/-- A call on the messages of a conversation. -/
inductive Op
  | customerSend (now conversationId : ℕ) (senderId : Option ℕ) (role : String) (body : MessageIn)
  | customerList (conversationId userId : ℕ)
  | shopSend (now conversationId userId : ℕ) (body : MessageIn)
  | shopList (conversationId userId : ℕ)
  | adminSend (conversationId adminId : ℕ) (body : MessageIn)
  | adminList (conversationId : ℕ)
  | aiSend (g : Guardrails) (now conversationId : ℕ) (senderId : Option ℕ) (role : String)
      (body : MessageIn) (skipGuardrails : Bool)
  | aiList (conversationId userId : ℕ) (user : User)
  | handover (g : Guardrails) (now conversationId : ℕ)

/-- The tables after a call. -/
def step (db : Store) : Op → Store
  | .customerSend now c senderId role body =>
    final (CustomerChats.sendMessage now c senderId role body) db
  | .customerList c userId => final (CustomerChats.listMessages c userId) db
  | .shopSend now c userId body => final (ShopChats.sendMessage now c userId body) db
  | .shopList c userId => final (ShopChats.listMessages c userId) db
  | .adminSend c adminId body => final (AdminChats.sendChat c adminId body) db
  | .adminList c => final (AdminChats.chatMessages c) db
  | .aiSend g now c senderId role body skip => final (sendMessage g now c senderId role body skip) db
  | .aiList c userId user => final (listMessages c userId user) db
  | .handover g now c => final (handoverToAdmin g now c) db

/-- An unread message of the conversation, from a sender with one of the roles `p`. -/
def waiting (p : String → Bool) (c : ℕ) (m : ChatMessage) : Bool :=
  m.conversationId = c ∧ m.isRead = false ∧ p m.senderRole

/-- How many there are. -/
def unread (p : String → Bool) (db : Store) (c : ℕ) : ℕ := (db.messages.select (waiting p c)).length

/-- Both counters of the conversation are right. -/
def Counted (c : ℕ) (db : Store) : Prop :=
  ∀ conv, db.conversations.get? c = some conv →
    conv.unreadCustomer = unread fromBakery db c ∧ conv.unreadAdmin = unread fromUser db c

/-- The call does not send a message of the role `retailer` through the checkout service, open
the conversation as a shop beside unread messages of the role `customer`, or as the bakery
beside unread messages of the assistant or the system. -/
def Fits (c : ℕ) (db : Store) : Op → Prop
  | .customerSend _ c' _ role _ => c' = c → (db.conversations.get? c).isSome → role ≠ "retailer"
  | .shopList c' userId => c' = c → ∀ conv, db.conversations.get? c = some conv →
      conv.customerId = userId → unread (fun r => r = "customer") db c = 0
  | .adminList c' => c' = c → (db.conversations.get? c).isSome →
      unread (fun r => r = "ai" ∨ r = "system") db c = 0
  | _ => True

/-! ## Counting -/

section Counting

variable {db : Store} {c c' : ℕ} {p : String → Bool} {change : Conversation → Conversation}

theorem unread_eq_countP (p : String → Bool) (db : Store) (c : ℕ) :
    unread p db c = db.messages.rows.countP fun r => waiting p c r.2 := by
  rw [unread, Table.select, List.countP_eq_length_filter]

/-- The messages of some roles are those of a part of them and of the others. -/
theorem unread_split (p q : String → Bool) (db : Store) (c : ℕ) :
    unread p db c = unread (fun r => p r && q r) db c + unread (fun r => p r && !q r) db c := by
  simp only [unread_eq_countP]
  induction db.messages.rows with
  | nil => rfl
  | cons r rows ih =>
    simp only [List.countP_cons, ih]
    by_cases hp : p r.2.senderRole <;> by_cases hq : q r.2.senderRole <;>
      simp [waiting, hp, hq] <;> omega

theorem unread_congr {p q : String → Bool} (h : ∀ r, p r = q r) : unread p db c = unread q db c := by
  rw [show p = q from funext h]

theorem unread_posted {m : ChatMessage} {n : Option Notice} :
    unread p (posted c' change m n db) c = unread p db c + if waiting p c m then 1 else 0 := by
  rw [unread, posted, Table.select_insert, List.length_append]
  by_cases h : waiting p c m <;> simp [h, unread]

/-- What is left unread of a conversation that is opened. -/
theorem unread_opened {mark : ChatMessage → ChatMessage} {q : String → Bool}
    (hmark : ∀ m, m.conversationId = c → waiting p c (mark m) = waiting q c m) :
    unread p (opened c change mark db) c = unread q db c := by
  rw [unread_eq_countP, unread_eq_countP, opened, Table.rows_mapRows, List.countP_map]
  refine List.countP_congr fun r _ => ?_
  by_cases h : r.2.conversationId = c
  · simp [h, hmark r.2 h]
  · simp [h, waiting]

/-- Opening another conversation. -/
theorem unread_opened_of_ne {mark : ChatMessage → ChatMessage} (hne : c ≠ c')
    (hmark : ∀ m, (mark m).conversationId = m.conversationId) :
    unread p (opened c' change mark db) c = unread p db c := by
  rw [unread_eq_countP, unread_eq_countP, opened, Table.rows_mapRows, List.countP_map]
  refine List.countP_congr fun r _ => ?_
  by_cases h : r.2.conversationId = c'
  · simp [h, waiting, hmark, hne.symm]
  · simp [h]

theorem unread_seenIf (q : String → Bool) :
    unread p (opened c change (seenIf q) db) c = unread (fun r => p r && !q r) db c := by
  refine unread_opened fun m _ => ?_
  by_cases hq : q m.senderRole <;> simp [seenIf, seen, waiting, hq]

theorem unread_seenUnless (role : String) :
    unread p (opened c change (seenUnless role) db) c =
      unread (fun r => p r && decide (r = role)) db c := by
  refine unread_opened fun m _ => ?_
  by_cases hrole : m.senderRole = role <;> by_cases hread : m.isRead <;>
    simp [seenUnless, seen, waiting, hrole, hread]

/-- A message in a conversation that is counted right. -/
theorem counted_posted_iff {conv : Conversation} {m : ChatMessage} {n : Option Notice}
    (h : Counted c db) (hconv : db.conversations.get? c = some conv) :
    Counted c (posted c change m n db) ↔
      (change conv).unreadCustomer = conv.unreadCustomer + (if waiting fromBakery c m then 1 else 0) ∧
        (change conv).unreadAdmin = conv.unreadAdmin + if waiting fromUser c m then 1 else 0 := by
  obtain ⟨hcustomer, hadmin⟩ := h conv hconv
  have hnew : (posted c change m n db).conversations.get? c = some (change conv) := by
    rw [posted, Table.get?_modify_self, hconv, Option.map_some]
  rw [Counted, hnew, hcustomer, hadmin]
  simp only [Option.some.injEq, forall_eq', unread_posted, Nat.cast_add, Nat.cast_ite,
    Nat.cast_one, Nat.cast_zero]

theorem counted_posted_of_ne {m : ChatMessage} {n : Option Notice} (hne : c ≠ c')
    (hm : m.conversationId = c') : Counted c (posted c' change m n db) ↔ Counted c db := by
  have hwaiting (p : String → Bool) : waiting p c m = false := by
    simp [waiting, hm, hne.symm]
  have hconv : (posted c' change m n db).conversations.get? c = db.conversations.get? c := by
    rw [posted, Table.get?_modify_of_ne _ _ hne]
  simp [Counted, hconv, unread_posted, hwaiting]

theorem counted_opened_iff {conv : Conversation} {mark : ChatMessage → ChatMessage}
    (hconv : db.conversations.get? c = some conv) :
    Counted c (opened c change mark db) ↔
      (change conv).unreadCustomer = unread fromBakery (opened c change mark db) c ∧
        (change conv).unreadAdmin = unread fromUser (opened c change mark db) c := by
  have hnew : (opened c change mark db).conversations.get? c = some (change conv) := by
    rw [opened, Table.get?_modify_self, hconv, Option.map_some]
  rw [Counted, hnew]
  simp only [Option.some.injEq, forall_eq']

theorem counted_opened_of_ne {mark : ChatMessage → ChatMessage} (hne : c ≠ c')
    (hmark : ∀ m, (mark m).conversationId = m.conversationId) :
    Counted c (opened c' change mark db) ↔ Counted c db := by
  have hconv : (opened c' change mark db).conversations.get? c = db.conversations.get? c := by
    rw [opened, Table.get?_modify_of_ne _ _ hne]
  simp only [Counted, hconv, unread_opened_of_ne hne hmark]

theorem not_fromBakery {role : String} (h : fromUser role) : fromBakery role = false := by
  rcases of_decide_eq_true h with rfl | rfl <;> decide

/-- A message of a service is counted exactly if the service counts messages of users like it. -/
theorem counted_sent_iff {users : String → Bool} {now : ℕ} {senderId : Option ℕ} {role : String}
    {body : MessageIn} {conv : Conversation} (husers : ∀ r, users r → fromUser r)
    (h : Counted c db) (hconv : db.conversations.get? c = some conv) :
    Counted c (sent users now c conv senderId role body db) ↔ (fromUser role → users role) := by
  rw [sent, counted_posted_iff h hconv]
  by_cases hrole : users role
  · have huser := husers role hrole
    simp [counted, hrole, waiting, messageOf, huser, not_fromBakery huser, withUnreadAdmin, touched]
  · by_cases hbakery : fromBakery role
    · have huser : ¬ fromUser role := fun h' => by
        rw [not_fromBakery h'] at hbakery
        cases hbakery
      simp [counted, hrole, hbakery, waiting, messageOf, huser, withUnreadCustomer, touched]
    · by_cases huser : fromUser role <;>
        simp [counted, hrole, hbakery, waiting, messageOf, huser, touched]

end Counting

/-! ## One call -/

section Calls

variable {db : Store} {c : ℕ}

/-- Messages of users in conversations that are read by the bakery. -/
theorem counted_sent_of_ne {users : String → Bool} {now c' : ℕ} {senderId : Option ℕ}
    {role : String} {body : MessageIn} {conv : Conversation} (hne : c ≠ c') :
    Counted c (sent users now c' conv senderId role body db) ↔ Counted c db :=
  counted_posted_of_ne hne rfl

theorem customerSend_iff (h : Counted c db) (now c' : ℕ) (senderId : Option ℕ) (role : String)
    (body : MessageIn) :
    Counted c (step db (.customerSend now c' senderId role body)) ↔
      Fits c db (.customerSend now c' senderId role body) := by
  rw [step, Fits, CustomerChats.sendMessage, final_get_bind]
  cases hconv : db.conversations.get? c' with
  | none =>
    refine iff_of_true h ?_
    rintro rfl hsome
    rw [hconv] at hsome
    cases hsome
  | some conv =>
    rw [final_orRaise_some_bind, final_raiseIf_bind]
    split_ifs with hempty
    · refine iff_of_true h fun _ _ => ?_
      rw [hempty.1]
      decide
    · rw [final_modify_commit_bind]
      show Counted c (sent _ now c' conv senderId role body db) ↔ _
      by_cases hc : c' = c
      · subst hc
        rw [counted_sent_iff (by simp [fromUser]) h hconv, hconv]
        simp only [fromUser, Bool.decide_or, Bool.or_eq_true, decide_eq_true_eq, Option.isSome_some,
          forall_const]
        constructor
        · rintro hcounts rfl
          exact absurd (hcounts (Or.inr rfl)) (by decide)
        · intro hne hrole
          exact hrole.resolve_right hne
      · rw [counted_sent_of_ne (Ne.symm hc)]
        exact iff_of_true h fun h' => absurd h' hc

theorem counted_aiSend (h : Counted c db) (g : Guardrails) (now c' : ℕ) (senderId : Option ℕ)
    (role : String) (body : MessageIn) (skip : Bool) :
    Counted c (final (sendMessage g now c' senderId role body skip) db) := by
  rcases final_sendMessage g skip with hsame | ⟨conv, content, hconv, hsent⟩
  · rw [hsame]
    exact h
  · rw [hsent]
    by_cases hc : c' = c
    · subst hc
      exact (counted_sent_iff (fun _ hr => hr) h hconv).2 fun hr => hr
    · exact (counted_sent_of_ne (Ne.symm hc)).2 h

theorem counted_shopSend (h : Counted c db) (now c' userId : ℕ) (body : MessageIn) :
    Counted c (step db (.shopSend now c' userId body)) := by
  rw [step, ShopChats.sendMessage, final_get_bind]
  cases hconv : db.conversations.get? c' with
  | none => exact h
  | some conv =>
    rw [final_orRaise_some_bind, final_raiseIf_bind]
    split_ifs with howner
    · exact h
    · rw [final_modify_commit_bind]
      by_cases hc : c' = c
      · subst hc
        refine (counted_posted_iff h hconv).2 ?_
        simp [waiting, fromUser, fromBakery, withUnreadAdmin, touched]
      · exact (counted_posted_of_ne (Ne.symm hc) rfl).2 h

theorem counted_adminSend (h : Counted c db) (c' adminId : ℕ) (body : MessageIn) :
    Counted c (step db (.adminSend c' adminId body)) := by
  rw [step, AdminChats.sendChat, final_get_bind]
  cases hconv : db.conversations.get? c' with
  | none => exact h
  | some conv =>
    rw [final_orRaise_some_bind, final_modify_commit_bind]
    by_cases hc : c' = c
    · subst hc
      refine (counted_posted_iff h hconv).2 ?_
      simp [waiting, fromUser, fromBakery, AdminChats.answered]
    · exact (counted_posted_of_ne (Ne.symm hc) rfl).2 h

theorem counted_handover (h : Counted c db) (g : Guardrails) (now c' : ℕ) :
    Counted c (step db (.handover g now c')) := by
  rw [step, final_handoverToAdmin]
  cases hconv : db.conversations.get? c' with
  | none => exact h
  | some conv =>
    -- The conversation changes hands before its message is sent.
    have hhanding : Counted c (handing c' db) := by
      intro conv' hconv'
      rw [handing, Table.get?_modify] at hconv'
      split_ifs at hconv' with hc
      · subst hc
        rw [hconv] at hconv'
        cases hconv'
        exact h conv hconv
      · exact h conv' hconv'
    have hhanded : (handing c' db).conversations.get? c' =
        some (handedOver ((firstAdmin db).map Prod.fst) conv) := by
      simp [handing, hconv]
    by_cases hc : c' = c
    · subst hc
      exact (counted_sent_iff (fun _ hr => hr) hhanding hhanded).2 fun hr => hr
    · exact (counted_sent_of_ne (Ne.symm hc)).2 hhanding

/-- Opening a conversation as its customer, who reads what the bakery sent. -/
theorem counted_opened_customer {c' : ℕ} (h : Counted c db) :
    Counted c (opened c' noUnreadCustomer (seenIf fromBakery) db) := by
  by_cases hc : c' = c
  · subst hc
    cases hconv : db.conversations.get? c' with
    | none => simp [Counted, opened, hconv]
    | some conv =>
      rw [counted_opened_iff hconv, unread_seenIf, unread_seenIf]
      refine ⟨?_, ?_⟩
      · simp [noUnreadCustomer, unread_eq_countP, waiting]
      · have hsame (r : String) : (fromUser r && !fromBakery r) = fromUser r := by
          by_cases hr : fromUser r <;> simp [hr, not_fromBakery]
        rw [unread_congr hsame]
        exact (h conv hconv).2
  · exact (counted_opened_of_ne (Ne.symm hc) fun m => by unfold seenIf; split_ifs <;> rfl).2 h

/-- Opening a conversation as the bakery, in the AI service. -/
theorem counted_opened_bakery {c' : ℕ} (h : Counted c db) :
    Counted c (opened c' noUnreadAdmin (seenIf fromUser) db) := by
  by_cases hc : c' = c
  · subst hc
    cases hconv : db.conversations.get? c' with
    | none => simp [Counted, opened, hconv]
    | some conv =>
      rw [counted_opened_iff hconv, unread_seenIf, unread_seenIf]
      refine ⟨?_, ?_⟩
      · have hsame (r : String) : (fromBakery r && !fromUser r) = fromBakery r := by
          by_cases hr : fromUser r <;> simp [hr, not_fromBakery]
        rw [unread_congr hsame]
        exact (h conv hconv).1
      · simp [noUnreadAdmin, unread_eq_countP, waiting]
  · exact (counted_opened_of_ne (Ne.symm hc) fun m => by unfold seenIf; split_ifs <;> rfl).2 h

theorem counted_customerList (h : Counted c db) (c' userId : ℕ) :
    Counted c (step db (.customerList c' userId)) := by
  rw [step, CustomerChats.listMessages, final_get_bind]
  cases hconv : db.conversations.get? c' with
  | none => exact h
  | some conv =>
    rw [final_orRaise_some_bind, final_raiseIf_bind]
    split_ifs with howner
    · exact h
    · rw [final_modify_commit_bind]
      exact counted_opened_customer h

theorem counted_aiList (h : Counted c db) (c' userId : ℕ) (user : User) :
    Counted c (step db (.aiList c' userId user)) := by
  rw [step]
  rcases final_listMessages db c' userId user with heq | heq | heq
  · rw [heq]
    exact h
  · rw [heq]
    exact counted_opened_bakery h
  · rw [heq]
    exact counted_opened_customer h

/-- No message is of a role that there is none of. -/
theorem unread_eq_zero {p : String → Bool} (h : ∀ r, p r = false) : unread p db c = 0 := by
  simp [unread_eq_countP, waiting, h]

/-- The counters, where the one that is positive is cleared. -/
theorem unread_cleared_customer {conv : Conversation} {n : ℕ} (h : conv.unreadCustomer = n) :
    (if 0 < conv.unreadCustomer then noUnreadCustomer conv else conv).unreadCustomer = 0 ∧
      (if 0 < conv.unreadCustomer then noUnreadCustomer conv else conv).unreadAdmin =
        conv.unreadAdmin := by
  split_ifs
  · exact ⟨rfl, rfl⟩
  · exact ⟨by omega, rfl⟩

theorem unread_cleared_admin {conv : Conversation} {n : ℕ} (h : conv.unreadAdmin = n) :
    (if 0 < conv.unreadAdmin then noUnreadAdmin conv else conv).unreadAdmin = 0 ∧
      (if 0 < conv.unreadAdmin then noUnreadAdmin conv else conv).unreadCustomer =
        conv.unreadCustomer := by
  split_ifs
  · exact ⟨rfl, rfl⟩
  · exact ⟨by omega, rfl⟩

/-- Opening a conversation as the shop reads the messages of its customer as well. -/
theorem shopList_iff (h : Counted c db) (c' userId : ℕ) :
    Counted c (step db (.shopList c' userId)) ↔ Fits c db (.shopList c' userId) := by
  rw [step, Fits, ShopChats.listMessages, final_get_bind]
  cases hconv : db.conversations.get? c' with
  | none =>
    refine iff_of_true h ?_
    rintro rfl conv hconv'
    rw [hconv] at hconv'
    cases hconv'
  | some conv =>
    rw [final_orRaise_some_bind, final_raiseIf_bind]
    by_cases hc : c' = c
    · subst hc
      split_ifs with howner
      · refine iff_of_true h fun _ conv' hconv' => ?_
        rw [hconv] at hconv'
        cases hconv'
        exact fun hown => absurd hown howner
      · rw [final_modify_commit_bind]
        show Counted c' (opened c' _ _ db) ↔ _
        obtain ⟨hcustomer, hadmin⟩ := h conv hconv
        obtain ⟨hzero, hsame⟩ := unread_cleared_customer hcustomer
        have hnone : unread (fun r => fromBakery r && decide (r = "retailer")) db c' = 0 :=
          unread_eq_zero fun r => by by_cases hr : r = "retailer" <;> simp [hr, fromBakery]
        have hsplit := unread_split fromUser (fun r => decide (r = "retailer")) db c'
        have hcustomers (r : String) :
            (fromUser r && !decide (r = "retailer")) = decide (r = "customer") := by
          by_cases hr : r = "retailer" <;> simp [hr, fromUser]
        rw [unread_congr hcustomers] at hsplit
        rw [counted_opened_iff hconv, unread_seenUnless, unread_seenUnless, hzero, hsame, hnone,
          hadmin, hconv]
        have howner : conv.customerId = userId := not_not.1 howner
        simp only [Option.some.injEq, forall_eq', howner, forall_const]
        omega
    · refine iff_of_true ?_ fun h' => absurd h' hc
      split_ifs with howner
      · exact h
      · rw [final_modify_commit_bind]
        refine (counted_opened_of_ne (Ne.symm hc) fun m => ?_).2 h
        unfold seenUnless
        split_ifs <;> rfl

/-- Opening a conversation as the bakery reads the messages of the assistant as well. -/
theorem adminList_iff (h : Counted c db) (c' : ℕ) :
    Counted c (step db (.adminList c')) ↔ Fits c db (.adminList c') := by
  rw [step, Fits, AdminChats.chatMessages, final_get_bind]
  cases hconv : db.conversations.get? c' with
  | none =>
    refine iff_of_true h ?_
    rintro rfl hsome
    rw [hconv] at hsome
    cases hsome
  | some conv =>
    rw [final_orRaise_some_bind, final_modify_commit_bind]
    by_cases hc : c' = c
    · subst hc
      show Counted c' (opened c' _ _ db) ↔ _
      obtain ⟨hcustomer, hadmin⟩ := h conv hconv
      obtain ⟨hzero, hsame⟩ := unread_cleared_admin hadmin
      have hnone : unread (fun r => fromUser r && decide (r = "admin")) db c' = 0 :=
        unread_eq_zero fun r => by by_cases hr : r = "admin" <;> simp [hr, fromUser]
      have hsplit := unread_split fromBakery (fun r => decide (r = "admin")) db c'
      have hothers (r : String) : (fromBakery r && !decide (r = "admin")) =
          decide (r = "ai" ∨ r = "system") := by
        by_cases hr : r = "admin" <;> simp [hr, fromBakery]
      rw [unread_congr hothers] at hsplit
      rw [counted_opened_iff hconv, unread_seenUnless, unread_seenUnless, hzero, hsame, hnone,
        hcustomer, hconv]
      simp only [Option.isSome_some, forall_const]
      omega
    · refine iff_of_true ?_ fun h' => absurd h' hc
      refine (counted_opened_of_ne (Ne.symm hc) fun m => ?_).2 h
      unfold seenUnless
      split_ifs <;> rfl

/-- A call keeps the counters right exactly if it fits. -/
theorem counted_step_iff (h : Counted c db) (op : Op) : Counted c (step db op) ↔ Fits c db op := by
  cases op with
  | customerSend now c' senderId role body => exact customerSend_iff h now c' senderId role body
  | customerList c' userId => exact iff_of_true (counted_customerList h c' userId) trivial
  | shopSend now c' userId body => exact iff_of_true (counted_shopSend h now c' userId body) trivial
  | shopList c' userId => exact shopList_iff h c' userId
  | adminSend c' adminId body => exact iff_of_true (counted_adminSend h c' adminId body) trivial
  | adminList c' => exact adminList_iff h c'
  | aiSend g now c' senderId role body skip =>
    exact iff_of_true (counted_aiSend h g now c' senderId role body skip) trivial
  | aiList c' userId user => exact iff_of_true (counted_aiList h c' userId user) trivial
  | handover g now c' => exact iff_of_true (counted_handover h g now c') trivial

end Calls

/-! ## Runs -/

/-- The counters of a conversation are right throughout a run exactly if each call fits. -/
theorem unread_counted_iff {c : ℕ} {db : Store} (h : Counted c db) (ops : List Op) :
    Throughout step (Counted c) db ops ↔ Stepwise step (Fits c) db ops := by
  have hstep (s : Store) (op : Op) (hs : Counted c s) : Counted c (step s op) ↔ Fits c s op :=
    counted_step_iff hs op
  exact throughout_iff_stepwise (I := fun _ : Store => True) (fun _ _ _ => trivial)
    (fun s op _ hs => hstep s op hs) trivial h ops

/-- A new conversation of the shop 2 with the assistant. -/
def newChat : Store where
  users := .ofList
    [{ phone := "9000000001", name := some "Owner", role := .admin, totalOrders := 0 },
     { phone := "9000000002", name := some "Shop", role := .retailer, totalOrders := 0 }]
  conversations := .ofList
    [{ category := .retailerAi, customerId := 2, isAi := true, updatedAt := 0 }]

/-- The shop writes, the bakery reads and answers, and the shop reads. -/
theorem counted_talk : Throughout step (Counted 1) newChat
    [.shopSend 1 1 2 { content := some "Hi" }, .adminList 1,
      .adminSend 1 1 { content := some "Hello" }, .shopList 1 2] := by
  refine (unread_counted_iff (fun conv hconv => ?_) _).2 ?_
  · cases hconv
    decide
  · simp only [stepwise_cons, stepwise_nil, Fits, and_true, true_and]
    refine ⟨fun _ _ => ?_, fun _ _ _ _ => ?_⟩ <;> decide +kernel

/-- The shop writes, the assistant answers, and the bakery reads. -/
def answerRead : List Op :=
  [.shopSend 1 1 2 { content := some "Hi" },
    .aiSend lenient 1 1 none "ai" { content := some "Hello" } true, .adminList 1]

/-- The shop has not read the answer: it is marked as read, and counted. -/
theorem uncounted_answer : ¬ Throughout step (Counted 1) newChat answerRead := by
  intro h
  have hread : unread fromBakery (run step newChat answerRead) 1 = 0 ∧
      ((run step newChat answerRead).conversations.get? 1).map (·.unreadCustomer) = some 1 := by
    decide +kernel
  obtain ⟨conv, hconv, hone⟩ := Option.map_eq_some_iff.1 hread.2
  have hzero := (h.final conv hconv).1
  rw [hone, hread.1] at hzero
  cases hzero

end Chat

end SweetCrust

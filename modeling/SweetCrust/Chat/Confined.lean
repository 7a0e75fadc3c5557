import SweetCrust.Chat.Agent
import SweetCrust.Lib.Paired
import SweetCrust.Lib.Runs

/-!
# What a user is shown of the others

A user asks the assistant, again and again, while everything else goes on: other users write and
are answered, their rows change, and so do the orders, shops and conversations.  In another course
of events all that may be different; what the user is answered is the same.

What a call reads beside the user's own rows and what is public is the first admin, whom a message
is passed on to, and which numbers of conversations are taken.

* `View`, `viewFor` — what a call of the user may read.
* `viewFor_posted`, `viewFor_withConversation`, `viewFor_handing` — what is written of it.
* `paired_aiChat` — a call in two databases of one view.
* `confined` — what the calls answer and store, in any two courses of events.
* `aside_aiChat` — a call of another user, as the user sees it.
* `SameView.others` — any number of them, and when two databases of one view stay so.
-/

namespace SweetCrust

open Tabular Session Text Decimal Listing Runs

namespace Chat

/-! ## The call, with its user -/

/-- A call of `_run_ai_chat`, with the model that is behind it. -/
structure AiRequest where
  now : ℕ
  userId : ℕ
  audience : Audience
  message : String
  conversationId : Option ℕ := none
  language : String := "en"
  mind : Mind
  rate : Except AppError Unit := .ok ()

/-- The call of a user, in a world. -/
def AiRequest.call (libs : Libs) (w : World) (users : Table User) (user : User) (r : AiRequest) :
    AiChatIn where
  now := r.now
  userId := r.userId
  user := user
  audience := r.audience
  message := r.message
  conversationId := r.conversationId
  brain := brainOf libs w users r.userId r.mind r.audience r.language
  rate := r.rate

/-- `load_user_async`, and `_run_ai_chat`. -/
def aiChat (g : Guardrails) (libs : Libs) (w : World) (r : AiRequest) : Service (ℕ × Answer) := do
  let db ← get
  let user ← orRaise ((db.users.get? r.userId).filter fun u => u.isActive)
    (.unauthorized "User not found")
  runAiChat g (r.call libs w db.users user)

/-! ## What a call may read -/

structure View where
  user : Option User
  /-- The first admin, and whether they are online. -/
  admin : Option (ℕ × Bool)
  /-- The numbers of the conversations, and the next one. -/
  taken : List ℕ
  next : ℕ
  conversations : List (ℕ × Conversation)
  messages : List ChatMessage
  notices : List Notice
  deriving DecidableEq

/-- The conversation is the user's, or there is none of that number. -/
def notOthers (v : ℕ) (db : Store) (c : ℕ) : Bool :=
  (db.conversations.get? c).all fun conv => conv.customerId = v

/-- What the user `v` may read, and what belongs to the conversations of `v`. -/
def viewFor (v : ℕ) (db : Store) : View where
  user := db.users.get? v
  admin := (firstAdmin db).map fun a => (a.1, a.2.isOnline)
  taken := db.conversations.rows.map Prod.fst
  next := db.conversations.next
  conversations := db.conversations.select fun conv => conv.customerId = v
  messages := (db.messages.select fun m => notOthers v db m.conversationId).map Prod.snd
  notices := (db.notices.select fun n => notOthers v db n.conversationId).map Prod.snd

/-- The databases are the same for the user. -/
def SameView (v : ℕ) (db db' : Store) : Prop := viewFor v db = viewFor v db'

instance (v : ℕ) (db db' : Store) : Decidable (SameView v db db') :=
  inferInstanceAs (Decidable (_ = _))

/-- The conversation is one of the user. -/
def Own (v : ℕ) (db : Store) (c : ℕ) : Prop :=
  ∃ conv, db.conversations.get? c = some conv ∧ conv.customerId = v

section Reading

variable {v c : ℕ} {db db' : Store} {conv : Conversation}

theorem mem_conversations_viewFor :
    (c, conv) ∈ (viewFor v db).conversations ↔
      db.conversations.get? c = some conv ∧ conv.customerId = v := by
  unfold viewFor Table.select
  rw [List.mem_filter, ← Table.get?_eq_some]
  simp

/-- A conversation of the user is the same in both databases. -/
theorem SameView.get? (h : SameView v db db') (hconv : db.conversations.get? c = some conv)
    (hown : conv.customerId = v) : db'.conversations.get? c = some conv := by
  have hmem := mem_conversations_viewFor.2 ⟨hconv, hown⟩
  rw [h] at hmem
  exact (mem_conversations_viewFor.1 hmem).1

theorem SameView.own (h : SameView v db db') (hown : Own v db c) : Own v db' c := by
  obtain ⟨conv, hconv, hcustomer⟩ := hown
  exact ⟨conv, h.get? hconv hcustomer, hcustomer⟩

/-- A number is taken in both databases or in neither. -/
theorem SameView.taken (h : SameView v db db') (hnone : db.conversations.get? c = none) :
    db'.conversations.get? c = none := by
  rw [Table.get?_eq_none] at hnone ⊢
  intro conv hmem
  have hkeys : c ∈ db.conversations.rows.map Prod.fst := by
    rw [show db.conversations.rows.map Prod.fst = _ from congrArg View.taken h]
    exact List.mem_map_of_mem hmem
  obtain ⟨r, hr, rfl⟩ := List.mem_map.1 hkeys
  exact hnone r.2 hr

theorem SameView.symm (h : SameView v db db') : SameView v db' db := Eq.symm h

theorem Own.notOthers (h : Own v db c) : notOthers v db c = true := by
  obtain ⟨conv, hconv, hcustomer⟩ := h
  simp [Chat.notOthers, hconv, hcustomer]

theorem messagesOf_own (h : Own v db c) :
    (messagesOf db c).map Prod.snd =
      (viewFor v db).messages.filter fun m => m.conversationId = c := by
  unfold messagesOf viewFor Table.select
  rw [List.filter_map, List.filter_filter]
  congr 1
  refine List.filter_congr fun r _ => ?_
  by_cases hr : r.2.conversationId = c
  · simp [hr, h.notOthers]
  · simp [hr]

/-- What was said in a conversation of the user is the same in both databases. -/
theorem SameView.llmHistory (h : SameView v db db') (hown : Own v db c) (limit : ℕ) :
    llmHistory db c limit = llmHistory db' c limit := by
  have hhistory : ∀ db, Chat.llmHistory db c limit =
      (((messagesOf db c).map Prod.snd).rtake limit).filterMap turn? := by
    intro db
    unfold Chat.llmHistory List.rtake
    rw [List.length_map, ← List.map_drop, List.filterMap_map]
    rfl
  rw [hhistory, hhistory, messagesOf_own hown, messagesOf_own (h.own hown), h]

theorem SameView.latestSupport (h : SameView v db db') (ai : Bool) :
    latestSupport db v ai = latestSupport db' v ai := by
  have hlatest : ∀ db, Chat.latestSupport db v ai =
      ((viewFor v db).conversations.filter fun r => r.2.category = supportCategory ai).argmax
        fun r => r.2.updatedAt := by
    intro db
    unfold Chat.latestSupport viewFor Table.select
    rw [List.filter_filter]
    congr 2
    funext r
    by_cases hr : r.2.customerId = v <;> simp [hr]
  rw [hlatest, hlatest, h]

end Reading

/-! ## What is written -/

/-- A conversation of the view is changed, and a message and a notification are added. -/
def View.posted (c : ℕ) (change : Conversation → Conversation) (messages : List ChatMessage)
    (notice : Option Notice) (view : View) : View :=
  { view with
    conversations := view.conversations.map fun r => (r.1, if r.1 = c then change r.2 else r.2)
    messages := view.messages ++ messages
    notices := view.notices ++ notice.toList }

section Writing

variable {v c : ℕ} {db db' : Store} {change : Conversation → Conversation}

theorem notOthers_modify (hchange : ∀ conv, (change conv).customerId = conv.customerId)
    (db : Store) (messages : Table ChatMessage) (notices : Table Notice) :
    notOthers v ⟨db.users, db.conversations.modify c change, messages, notices⟩ =
      notOthers v db := by
  funext k
  unfold notOthers
  rw [Table.get?_modify]
  split_ifs
  · cases db.conversations.get? k with
    | none => rfl
    | some conv => simp [hchange]
  · rfl

theorem map_snd_select_insert {α : Type} (t : Table α) (a : α) {p : α → Bool} (hp : p a = true) :
    ((t.insert a).select p).map Prod.snd = (t.select p).map Prod.snd ++ [a] := by
  rw [Table.select_insert, hp, if_pos rfl, List.map_append]
  rfl

/-- The rows of a changed conversation, with what is added to its messages and notifications. -/
theorem viewFor_modify (hown : Own v db c)
    (hchange : ∀ conv, (change conv).customerId = conv.customerId) (messages : List ChatMessage)
    (hmessages : ∀ m ∈ messages, m.conversationId = c) {notice : Option Notice}
    (hnotice : ∀ n ∈ notice, n.conversationId = c) :
    viewFor v ⟨db.users, db.conversations.modify c change, db.messages.insertAll messages,
        notice.elim db.notices db.notices.insert⟩ =
      (viewFor v db).posted c change messages notice := by
  unfold viewFor View.posted
  simp only [notOthers_modify hchange]
  congr 1
  · show (db.conversations.modify c change).rows.map Prod.fst = db.conversations.rows.map Prod.fst
    rw [Table.rows_modify, List.map_map]
    rfl
  · exact Table.select_mapRows _ fun k conv => by split_ifs <;> simp [hchange]
  · rw [Table.map_select_insertAll]
    congr 1
    exact List.filter_eq_self.2 fun m hm => by rw [hmessages m hm, hown.notOthers]
  · cases notice with
    | none => simp
    | some n =>
      exact map_snd_select_insert db.notices n (by rw [hnotice n rfl, hown.notOthers])

theorem viewFor_posted (hown : Own v db c)
    (hchange : ∀ conv, (change conv).customerId = conv.customerId) {m : ChatMessage}
    (hm : m.conversationId = c) {n : Option Notice} (hn : ∀ k ∈ n, k.conversationId = c) :
    viewFor v (posted c change m n db) = (viewFor v db).posted c change [m] n :=
  viewFor_modify hown hchange [m] (by simpa using hm) hn

theorem own_modify (hown : Own v db c)
    (hchange : ∀ conv, (change conv).customerId = conv.customerId) (messages : Table ChatMessage)
    (notices : Table Notice) :
    Own v ⟨db.users, db.conversations.modify c change, messages, notices⟩ c := by
  obtain ⟨conv, hconv, hcustomer⟩ := hown
  exact ⟨change conv, by simp [hconv], by rw [hchange, hcustomer]⟩

/-- A new conversation of the user. -/
theorem viewFor_withConversation {conv : Conversation} (hcustomer : conv.customerId = v) :
    viewFor v (withConversation conv db) =
      { viewFor v db with
        taken := (viewFor v db).taken ++ [(viewFor v db).next]
        next := (viewFor v db).next + 1
        conversations := (viewFor v db).conversations ++ [((viewFor v db).next, conv)] } := by
  have hvisible : notOthers v (withConversation conv db) = notOthers v db := by
    funext k
    unfold notOthers withConversation
    rw [Table.get?_insert]
    split_ifs with hk
    · rw [hk, Table.get?_next]
      simp [hcustomer]
    · rfl
  unfold viewFor
  rw [hvisible]
  congr 1
  · show (db.conversations.insert conv).rows.map Prod.fst = _
    rw [Table.rows_insert, List.map_append]
    rfl
  · show (db.conversations.insert conv).select _ = _
    rw [Table.select_insert, if_pos (by simpa using hcustomer)]

end Writing

/-! ## A call in two databases -/

section Pairing

variable {v c : ℕ} {db db' : Store} {g : Guardrails}

/-- The databases are the same for the user, whose conversation it is. -/
def Shared (v c : ℕ) (db db' : Store) : Prop := SameView v db db' ∧ Own v db c

theorem firstAdmin_congr (h : SameView v db db') {α : Type} (f : ℕ → Bool → α) :
    (firstAdmin db).map (fun a => f a.1 a.2.isOnline) =
      (firstAdmin db').map fun a => f a.1 a.2.isOnline := by
  have hadmin : (firstAdmin db).map (fun a => (a.1, a.2.isOnline)) =
      (firstAdmin db').map fun a => (a.1, a.2.isOnline) := congrArg View.admin h
  have hmap := congrArg (Option.map fun a : ℕ × Bool => f a.1 a.2) hadmin
  rw [Option.map_map, Option.map_map] at hmap
  exact hmap

theorem messageOf_congr (h : SameView v db db') (users : String → Bool) {conv : Conversation}
    (hcustomer : conv.customerId = v) (senderId : Option ℕ) (role : String) (body : MessageIn) :
    messageOf users db c conv senderId role body =
      messageOf users db' c conv senderId role body := by
  have hadmin : online ((firstAdmin db).map Prod.snd) = online ((firstAdmin db').map Prod.snd) := by
    have honline := firstAdmin_congr h fun _ isOnline => isOnline
    revert honline
    cases firstAdmin db <;> cases firstAdmin db' <;> simp [online]
  have huser : db.users.get? v = db'.users.get? v := congrArg View.user h
  unfold messageOf
  rw [hadmin, hcustomer, huser]

theorem noticeOf_congr (h : SameView v db db') (users : String → Bool) {conv : Conversation}
    (hcustomer : conv.customerId = v) (role : String) (body : MessageIn) :
    noticeOf users db c conv role body = noticeOf users db' c conv role body := by
  have huser : db.users.get? v = db'.users.get? v := congrArg View.user h
  unfold noticeOf
  rw [hcustomer, huser]
  by_cases huser : users role = true
  · rw [if_pos huser, if_pos huser]
    exact firstAdmin_congr h fun i isOnline =>
      { userId := i, type := "chat"
        title := "New " ++ (if role = "retailer" then "shop" else "customer") ++ " message" ++
          (if isOnline then "" else " (offline — will see when online)")
        body := noticeBody body.content body.messageType
        conversationId := c, offline := some (! isOnline) : Notice }
  · rw [if_neg huser, if_neg huser]

theorem conversationId_of_mem_noticeOf {users : String → Bool} {conv : Conversation}
    {role : String} {body : MessageIn} {n : Notice} (h : n ∈ noticeOf users db c conv role body) :
    n.conversationId = c := by
  rw [noticeOf, Option.mem_def] at h
  by_cases huser : users role = true
  · rw [if_pos huser] at h
    obtain ⟨a, -, rfl⟩ := Option.map_eq_some_iff.1 h
    rfl
  · rw [if_neg huser] at h
    by_cases hbakery : fromBakery role = true
    · rw [if_pos hbakery] at h
      obtain ⟨a, -, rfl⟩ := Option.map_eq_some_iff.1 h
      rfl
    · rw [if_neg hbakery] at h
      cases h

theorem customerId_counted (users : String → Bool) (role : String) (conv : Conversation) :
    (counted users role conv).customerId = conv.customerId := by
  unfold counted
  split_ifs <;> rfl

/-- A message of a conversation of the user is sent in both databases. -/
theorem shared_sent (h : Shared v c db db') {conv : Conversation}
    (hconv : db.conversations.get? c = some conv) (users : String → Bool) (now : ℕ)
    (senderId : Option ℕ) (role : String) (body : MessageIn) :
    Shared v c (sent users now c conv senderId role body db)
      (sent users now c conv senderId role body db') := by
  obtain ⟨hview, hown⟩ := h
  have hcustomer : conv.customerId = v := by
    obtain ⟨conv', hconv', hcustomer⟩ := hown
    rw [hconv] at hconv'
    cases hconv'
    exact hcustomer
  have hchange : ∀ k, (counted users role
      (touched now (shown body.content body.messageType) k)).customerId = k.customerId := fun k =>
    customerId_counted users role _
  constructor
  · unfold SameView sent
    rw [viewFor_posted hown hchange rfl fun _ => conversationId_of_mem_noticeOf,
      viewFor_posted (hview.own hown) hchange rfl fun _ => conversationId_of_mem_noticeOf,
      messageOf_congr hview users hcustomer, noticeOf_congr hview users hcustomer, hview]
  · exact own_modify hown hchange _ _

theorem paired_sendMessage (h : Shared v c db db') (now : ℕ) (senderId : Option ℕ) (role : String)
    (body : MessageIn) (skip : Bool) :
    Paired (SameView v) (fun _ _ => Shared v c) (sendMessage g now c senderId role body skip)
      (sendMessage g now c senderId role body skip) db db' := by
  obtain ⟨conv, hconv, hcustomer⟩ := h.2
  unfold sendMessage
  refine Paired.get_bind (Paired.orRaise_bind (by rw [hconv, h.1.get? hconv hcustomer]) ?_)
  intro conv' hconv'
  refine Paired.ofExcept_bind rfl fun content _ => Paired.modify_bind ?_
  have hsent := shared_sent h hconv' fromUser now senderId role
    { body with content := aiFiltered g role content }
  exact Paired.commit_bind hsent.1 (paired_pure hsent)

/-- The notification of a handover. -/
def escalated (c i : ℕ) : Notice where
  userId := i
  type := "ai"
  title := "AI chat escalated"
  body := "A shop/customer needs human support"
  conversationId := c

theorem viewFor_handing (hown : Own v db c) :
    viewFor v (handing c db) = (viewFor v db).posted c (handedOver ((firstAdmin db).map Prod.fst))
      [] ((firstAdmin db).map fun a => escalated c a.1) := by
  have hchange : ∀ conv, (handedOver ((firstAdmin db).map Prod.fst) conv).customerId =
      conv.customerId := fun _ => rfl
  refine viewFor_modify hown hchange [] (by simp) fun n hn => ?_
  obtain ⟨a, -, rfl⟩ := Option.map_eq_some_iff.1 hn
  rfl

/-- A conversation of the user is handed over in both. -/
theorem shared_handing (h : Shared v c db db') : Shared v c (handing c db) (handing c db') := by
  obtain ⟨hview, hown⟩ := h
  have hadmin : (firstAdmin db).map Prod.fst = (firstAdmin db').map Prod.fst :=
    firstAdmin_congr hview fun i _ => i
  have hnotice : (firstAdmin db).map (fun a => escalated c a.1) =
      (firstAdmin db').map fun a => escalated c a.1 :=
    firstAdmin_congr hview fun i _ => escalated c i
  have hchange : ∀ conv, (handedOver ((firstAdmin db).map Prod.fst) conv).customerId =
      conv.customerId := fun _ => rfl
  constructor
  · unfold SameView
    rw [viewFor_handing hown, viewFor_handing (hview.own hown), hadmin, hnotice, hview]
  · exact own_modify hown hchange _ _

theorem paired_handoverToAdmin (h : Shared v c db db') (now : ℕ) :
    Paired (SameView v) (fun _ _ => SameView v) (handoverToAdmin g now c) (handoverToAdmin g now c)
      db db' := by
  obtain ⟨conv, hconv, hcustomer⟩ := h.2
  unfold handoverToAdmin
  refine Paired.get_bind (Paired.orRaise_bind (by rw [hconv, h.1.get? hconv hcustomer]) ?_)
  intro _ _
  refine Paired.modify_bind ?_
  exact (paired_sendMessage (shared_handing h) now none "system" _ true).bind
    fun _ _ _ _ hshared => paired_pure hshared.1

theorem paired_createConversation (h : SameView v db db') (now : ℕ) (category : String)
    (isAi : Bool) :
    Paired (SameView v) (fun k k' t t' => k = k' ∧ Shared v k t t')
      (createConversation g now v { category, isAi })
      (createConversation g now v { category, isAi }) db db' := by
  have hview : SameView v
      (withConversation (newConversation now v category isAi) db)
      (withConversation (newConversation now v category isAi) db') := by
    have hcustomer : (newConversation now v category isAi).customerId = v := rfl
    unfold SameView
    rw [viewFor_withConversation hcustomer, viewFor_withConversation hcustomer, h]
  have hnext : db.conversations.next = db'.conversations.next := congrArg View.next h
  unfold createConversation
  refine Paired.get_bind (Paired.modify_bind (Paired.commit_bind hview ?_))
  refine paired_pure ⟨hnext, hview, newConversation now v category isAi, ?_, rfl⟩
  exact (Table.get?_insert ..).trans (if_pos rfl)

theorem paired_requireConversation (h : SameView v db db') {user : User}
    (huser : user.role ≠ .admin) (c : ℕ) :
    Paired (SameView v) (fun _ _ => Shared v c) (requireConversation c v user)
      (requireConversation c v user) db db' := by
  unfold requireConversation
  refine Paired.get_bind ?_
  cases hconv : db.conversations.get? c with
  | none =>
    rw [h.taken hconv]
    exact paired_raise _
  | some conv =>
    by_cases hcustomer : conv.customerId = v
    · refine Paired.orRaise_bind (h.get? hconv hcustomer).symm fun conv' hconv' => ?_
      cases hconv'
      have hmay : ¬ (user.role ≠ .admin ∧ conv.customerId ≠ v) := fun hno => hno.2 hcustomer
      rw [raiseIf, if_neg hmay]
      exact paired_pure ⟨h, conv, hconv, hcustomer⟩
    · -- the other database has a conversation of someone else there, too
      cases hconv' : db'.conversations.get? c with
      | none =>
        rw [h.symm.taken hconv'] at hconv
        cases hconv
      | some conv' =>
        have hcustomer' : conv'.customerId ≠ v := by
          intro hown
          rw [h.symm.get? hconv' hown] at hconv
          cases hconv
          exact hcustomer hown
        constructor
        · unfold Session.commits
          rw [orRaise_some_bind, orRaise_some_bind, raiseIf_bind_of ⟨huser, hcustomer⟩,
            raiseIf_bind_of ⟨huser, hcustomer'⟩]
          exact .nil
        · rw [orRaise_some_bind, orRaise_some_bind, raiseIf_bind_of ⟨huser, hcustomer⟩,
            raiseIf_bind_of ⟨huser, hcustomer'⟩]
          exact .error _

theorem own_of_latestSupport {ai : Bool} {r : ℕ × Conversation}
    (h : latestSupport db v ai = some r) : Own v db r.1 := by
  have hmem := List.mem_filter.1 (List.argmax_mem h)
  have hcustomer : r.2.customerId = v ∧ r.2.category = supportCategory ai := by simpa using hmem.2
  exact ⟨r.2, Table.get?_eq_some.2 hmem.1, hcustomer.1⟩

variable {call : AiChatIn}

theorem paired_conversationFor (h : SameView v db db') (hv : call.userId = v)
    (huser : call.user.role ≠ .admin) :
    Paired (SameView v) (fun k k' t t' => k = k' ∧ Shared v k t t') (conversationFor g call)
      (conversationFor g call) db db' := by
  unfold conversationFor
  rw [hv]
  cases call.conversationId.filter fun c => c ≠ 0 with
  | some c =>
    exact (paired_requireConversation h huser c).bind
      fun _ _ _ _ hshared => paired_pure ⟨rfl, hshared⟩
  | none =>
    cases call.audience with
    | customer => exact paired_createConversation h call.now "ai" true
    | retailer =>
      unfold getOrCreateRetailerSupport
      refine Paired.get_bind ?_
      rw [← h.latestSupport true]
      cases hlatest : (latestSupport db v true).filter fun r =>
          true = false ∨ r.2.isAi = true ∨ r.2.aiHandedOver = false with
      | some r =>
        exact paired_pure ⟨rfl, h, own_of_latestSupport (Option.filter_eq_some_iff.1 hlatest).1⟩
      | none => exact paired_createConversation h call.now _ true

theorem paired_asked (h : SameView v db db') (hv : call.userId = v)
    (huser : call.user.role ≠ .admin) :
    Paired (SameView v) (fun a a' t t' => a = a' ∧ Shared v a.1 t t') (asked g call) (asked g call)
      db db' := by
  unfold asked
  refine Paired.ofExcept_bind rfl fun _ _ => ?_
  refine (paired_conversationFor h hv huser).bind ?_
  rintro c _ t t' ⟨rfl, hshared⟩
  refine Paired.get_bind (paired_pure ⟨?_, hshared⟩)
  rw [hshared.1.llmHistory hshared.2]

theorem paired_runAiChat (h : SameView v db db') (hv : call.userId = v)
    (huser : call.user.role ≠ .admin) :
    Paired (SameView v) (fun a a' t t' => a = a' ∧ SameView v t t') (runAiChat g call)
      (runAiChat g call) db db' := by
  unfold runAiChat
  refine (paired_asked h hv huser).bind ?_
  rintro ⟨c, passed, answer⟩ _ t t' ⟨rfl, hshared⟩
  refine (paired_sendMessage hshared ..).bind fun _ _ t t' hshared => ?_
  refine (paired_sendMessage hshared ..).bind fun _ _ t t' hshared => ?_
  dsimp only
  split_ifs
  · exact (paired_handoverToAdmin hshared call.now).bind
      fun _ _ _ _ hview => paired_pure ⟨rfl, hview⟩
  · exact paired_pure ⟨rfl, hshared.1⟩

/-- The user is not an admin. -/
def Plain (v : ℕ) (db : Store) : Prop := ∀ user ∈ db.users.get? v, user.role ≠ .admin

instance (v : ℕ) (db : Store) : Decidable (Plain v db) :=
  inferInstanceAs (Decidable (∀ _ ∈ db.users.get? v, _))

/-- A call in two databases, and two worlds, that are the same for its user. -/
theorem paired_aiChat (h : SameView v db db') (hplain : Plain v db) {libs : Libs} {w w' : World}
    {r : AiRequest} (hv : r.userId = v) (hw : visibleTo v w = visibleTo v w') :
    Paired (SameView v) (fun a a' t t' => a = a' ∧ SameView v t t') (aiChat g libs w r)
      (aiChat g libs w' r) db db' := by
  subst hv
  have husers : db.users.get? r.userId = db'.users.get? r.userId := congrArg View.user h
  unfold aiChat
  refine Paired.get_bind (Paired.orRaise_bind (by rw [husers]) fun user huser => ?_)
  have hcall : r.call libs w db.users user = r.call libs w' db'.users user := by
    unfold AiRequest.call
    rw [brainOf_congr _ _ hw husers]
  rw [← hcall]
  exact paired_runAiChat h rfl (hplain user (Option.filter_eq_some_iff.1 huser).1)

end Pairing

/-! ## Courses of events -/

/-- A call of the assistant, in the world that it finds, or anything else that happens to the
tables. -/
inductive Happening
  | call (r : AiRequest) (w : World)
  | other (change : Store → Store)

/-- The tables, and what each call has come to, with its user. -/
structure Served where
  store : Store
  outcomes : List (ℕ × Except AppError (ℕ × Answer)) := []

def happen (g : Guardrails) (libs : Libs) (s : Served) : Happening → Served
  | .call r w =>
    { store := final (aiChat g libs w r) s.store
      outcomes := s.outcomes ++ [(r.userId, (aiChat g libs w r s.store).2.map Prod.fst)] }
  | .other change => { s with store := change s.store }

/-- What the user was answered. -/
def told (v : ℕ) (s : Served) : List (Except AppError (ℕ × Answer)) :=
  (s.outcomes.filter fun o => o.1 = v).map Prod.snd

/-- It is a call of the user. -/
def Happening.Mine (v : ℕ) : Happening → Prop
  | .call r _ => r.userId = v
  | .other _ => False

variable (g : Guardrails) (libs : Libs)

/-- Two courses of events in which the user makes the same calls.  What happens between them is
different, but leaves the user the same view each time. -/
inductive Courses (v : ℕ) : Served → Served → List Happening → List Happening → Prop
  | nil (s s' : Served) : Courses v s s' [] []
  | mine {s s' : Served} {r : AiRequest} {w w' : World} {es es' : List Happening}
      (hv : r.userId = v) (hplain : Plain v s.store) (hw : visibleTo v w = visibleTo v w')
      (hrest : Courses v (happen g libs s (.call r w)) (happen g libs s' (.call r w')) es es') :
      Courses v s s' (.call r w :: es) (.call r w' :: es')
  | others {s s' : Served} {es es' : List Happening} (l l' : List Happening)
      (hl : ∀ e ∈ l, ¬ e.Mine v) (hl' : ∀ e ∈ l', ¬ e.Mine v)
      (hview : SameView v (run (happen g libs) s l).store (run (happen g libs) s' l').store)
      (hrest : Courses v (run (happen g libs) s l) (run (happen g libs) s' l') es es') :
      Courses v s s' (l ++ es) (l' ++ es')

section Courses

variable {g libs} {v : ℕ} {s s' : Served} {es es' : List Happening}

theorem told_call_self {r : AiRequest} (w : World) (hv : r.userId = v) :
    told v (happen g libs s (.call r w)) =
      told v s ++ [(aiChat g libs w r s.store).2.map Prod.fst] := by
  simp [told, happen, List.filter_append, hv]

theorem told_other {e : Happening} (he : ¬ e.Mine v) : told v (happen g libs s e) = told v s := by
  cases e with
  | call r w =>
    have hne : ¬ r.userId = v := he
    simp [told, happen, List.filter_append, hne]
  | other change => rfl

theorem told_others {l : List Happening} (hl : ∀ e ∈ l, ¬ e.Mine v) :
    told v (run (happen g libs) s l) = told v s := by
  induction l generalizing s with
  | nil => rfl
  | cons e l ih =>
    rw [run_cons, ih fun d hd => hl d (List.mem_cons_of_mem e hd),
      told_other (hl e (List.mem_cons_self ..))]

/-- In two such courses of events, whatever the models do, the user is told the same and is left the
same view. -/
theorem confined (h : Courses g libs v s s' es es') (hview : SameView v s.store s'.store)
    (htold : told v s = told v s') :
    told v (run (happen g libs) s es) = told v (run (happen g libs) s' es') ∧
      SameView v (run (happen g libs) s es).store (run (happen g libs) s' es').store := by
  induction h with
  | nil => exact ⟨htold, hview⟩
  | mine hv hplain hw _ ih =>
    rw [run_cons, run_cons]
    refine ih ((paired_aiChat hview hplain hv hw).final hview) ?_
    rw [told_call_self _ hv, told_call_self _ hv, htold,
      (paired_aiChat hview hplain hv hw).answer fun _ _ _ _ hQ => hQ.1]
  | others l l' hl hl' hafter _ ih =>
    rw [run_append, run_append]
    exact ih hafter (by rw [told_others hl, told_others hl', htold])

end Courses

/-- A model that asks for the credit of the shop, and passes it on. -/
def repeating : Mind where
  configured := true
  ready := true
  agent _ _ tools := do
    let credit ← tools .shopCredit
    return some [{ byAi := true, content := credit.getD "" }]
  invoke _ _ := none
  completion _ _ := none
  parse text := { reply := text }

/-- Two shops, of which the second owes an amount. -/
def twoShops (owed : ℚ) : World where
  profiles := .ofList [
    { userId := 2, shopName := "Oven", creditAllowed := true, creditLimit := 500
      outstandingBalance := 100, payableBalance := 0, isWholesaler := false, isBlocked := false },
    { userId := 3, shopName := "Crust", creditAllowed := true, creditLimit := 900
      outstandingBalance := owed, payableBalance := 0, isWholesaler := false, isBlocked := false }]

/-- The bakery, and the shops 2 and 3, of which the second has written something. -/
def withShops (name said : String) : Store where
  users := .ofList [
    { phone := "9000000001", name := some "Owner", role := .admin, totalOrders := 0 },
    { phone := "9000000002", name := some "Oven", role := .retailer, totalOrders := 0 },
    { phone := "9000000003", name := some name, role := .retailer, totalOrders := 0 }]
  conversations := .ofList [
    { category := .retailerAi, customerId := 3, isAi := true, updatedAt := 0 }]
  messages := .ofList [
    { conversationId := 1, senderId := some 3, senderRole := "retailer", content := some said }]

/-- A shop asks for its credit. -/
def creditAsked (shop : ℕ) : AiRequest where
  now := 0
  userId := shop
  audience := .retailer
  message := "credit"
  mind := repeating

/-- The shop 2 asks twice; the shop 3 in between, or not. -/
theorem confined_twoShops :
    let s : Served := ⟨withShops "Crust" "Hello", []⟩
    let s' : Served := ⟨withShops "Crumb" "Is anyone there?", []⟩
    let es : List Happening :=
      [.call (creditAsked 2) (twoShops 0), .call (creditAsked 2) (twoShops 0)]
    let es' : List Happening := [.call (creditAsked 2) (twoShops 0),
      .call (creditAsked 3) (twoShops 700), .call (creditAsked 2) (twoShops 700)]
    told 2 (run (happen lenient plainLibs) s es) = told 2 (run (happen lenient plainLibs) s' es') ∧
      SameView 2 (run (happen lenient plainLibs) s es).store
        (run (happen lenient plainLibs) s' es').store := by
  refine confined (.mine rfl (by decide) rfl ?_) (by decide +kernel) rfl
  exact .others [] [_] nofun (by simp [Happening.Mine, creditAsked])
    (by decide +kernel) (.mine rfl (by decide +kernel) rfl (.nil _ _))

/-- What it is told. -/
example : (told 2 (run (happen lenient plainLibs) ⟨withShops "Crust" "Hello", []⟩
      [.call (creditAsked 2) (twoShops 700)])).map (fun o => o.toOption.map fun a => a.2.reply) =
    [some ("approval=approved; credit_allowed=True; limit=₹500; outstanding=₹100; " ++
      "available=₹400; blocked=False")] := by decide +kernel

/-! ## Calls of other users -/

/-- Messages and notifications are about conversations that were opened. -/
def Linked (db : Store) : Prop :=
  (db.messages.All fun m => m.conversationId < db.conversations.next) ∧
    db.notices.All fun n => n.conversationId < db.conversations.next

/-- The view, where a conversation of someone else is opened. -/
def View.opened (view : View) : View :=
  { view with taken := view.taken ++ [view.next], next := view.next + 1 }

/-- What a call of another user leaves. -/
structure Aside (v : ℕ) (db db' : Store) : Prop where
  view : viewFor v db' = viewFor v db ∨ viewFor v db' = (viewFor v db).opened
  linked : Linked db'
  users : db'.users = db.users

section Others

variable {g libs} {v c : ℕ} {users : Table User} {db db' : Store} {view : View}

/-- The user has the view, and the conversation is someone else's. -/
structure Sees (v c : ℕ) (users : Table User) (view : View) (db : Store) : Prop where
  view : viewFor v db = view
  other : ∃ conv, db.conversations.get? c = some conv ∧ conv.customerId ≠ v
  linked : Linked db
  users : db.users = users

theorem linked_modify (hlinked : Linked db) {conv : Conversation}
    (hconv : db.conversations.get? c = some conv) (change : Conversation → Conversation)
    {messages : List ChatMessage} (hmessages : ∀ m ∈ messages, m.conversationId = c)
    {notice : Option Notice} (hnotice : ∀ n ∈ notice, n.conversationId = c) :
    Linked ⟨db.users, db.conversations.modify c change, db.messages.insertAll messages,
      notice.elim db.notices db.notices.insert⟩ := by
  have hlt : c < db.conversations.next := Table.lt_next_of_get? hconv
  constructor
  · refine hlinked.1.insertAll fun m hm => ?_
    rw [hmessages m hm]
    exact hlt
  · cases notice with
    | none => exact hlinked.2
    | some n =>
      refine hlinked.2.insert ?_
      rw [hnotice n rfl]
      exact hlt

theorem sees_modify (h : Sees v c users view db) {change : Conversation → Conversation}
    (hchange : ∀ conv, (change conv).customerId = conv.customerId) (messages : List ChatMessage)
    (hmessages : ∀ m ∈ messages, m.conversationId = c) {notice : Option Notice}
    (hnotice : ∀ n ∈ notice, n.conversationId = c) :
    Sees v c users view ⟨db.users, db.conversations.modify c change,
      db.messages.insertAll messages, notice.elim db.notices db.notices.insert⟩ := by
  obtain ⟨rfl, ⟨conv, hconv, hcustomer⟩, hlinked, husers⟩ := h
  have hothers : notOthers v db c = false := by simp [notOthers, hconv, hcustomer]
  have hother : (change conv).customerId ≠ v := by
    rw [hchange]
    exact hcustomer
  refine ⟨?_, ⟨change conv, by simp [hconv], hother⟩,
    linked_modify hlinked hconv change hmessages hnotice, husers⟩
  unfold viewFor
  simp only [notOthers_modify hchange]
  congr 1
  · show (db.conversations.modify c change).rows.map Prod.fst = db.conversations.rows.map Prod.fst
    rw [Table.rows_modify, List.map_map]
    rfl
  · refine Table.select_modify_of_not fun conv' hconv' => ?_
    rw [hconv] at hconv'
    cases hconv'
    simp [hchange, hcustomer]
  · rw [Table.map_select_insertAll, List.filter_eq_nil_iff.2, List.append_nil]
    intro m hm
    rw [hmessages m hm, hothers]
    simp
  · cases notice with
    | none => rfl
    | some n =>
      show ((db.notices.insert n).select _).map Prod.snd = _
      rw [Table.select_insert, hnotice n rfl, hothers]
      simp

theorem keeps_sendMessage (now : ℕ) (senderId : Option ℕ) (role : String) (body : MessageIn)
    (skip : Bool) : Keeps (Sees v c users view) (sendMessage g now c senderId role body skip) := by
  unfold sendMessage
  refine keeps_get_bind fun db => (keeps_orRaise _ _).bind fun conv => ?_
  refine (keeps_ofExcept _).bind fun content => Keeps.bind (keeps_modify fun db' hsees => ?_) ?_
  · exact sees_modify hsees (fun k => customerId_counted fromUser role (touched now _ k))
      [messageOf fromUser db' c conv senderId role _] (by simp [messageOf])
      fun _ => conversationId_of_mem_noticeOf
  · exact fun _ => keeps_commit.bind fun _ => keeps_pure _

theorem keeps_handoverToAdmin (now : ℕ) :
    Keeps (Sees v c users view) (handoverToAdmin g now c) := by
  unfold handoverToAdmin
  refine keeps_get_bind fun db => (keeps_orRaise _ _).bind fun conv => ?_
  refine Keeps.bind (keeps_modify fun db' hsees => ?_) fun _ =>
    Keeps.bind (keeps_sendMessage now none "system" _ true) fun _ => keeps_pure _
  have hchange : ∀ conv, (handedOver ((firstAdmin db').map Prod.fst) conv).customerId =
      conv.customerId := fun _ => rfl
  refine sees_modify hsees hchange [] (by simp) fun n hn => ?_
  obtain ⟨a, -, rfl⟩ := Option.map_eq_some_iff.1 hn
  rfl

/-- A conversation that another user opens. -/
theorem viewFor_opened (hlinked : Linked db) {conv : Conversation}
    (hcustomer : conv.customerId ≠ v) :
    viewFor v (withConversation conv db) = (viewFor v db).opened := by
  have hvisible : ∀ k, k ≠ db.conversations.next →
      notOthers v (withConversation conv db) k = notOthers v db k := by
    intro k hk
    unfold notOthers withConversation
    rw [Table.get?_insert, if_neg hk]
  unfold viewFor View.opened
  congr 1
  · show (db.conversations.insert conv).rows.map Prod.fst = _
    rw [Table.rows_insert, List.map_append]
    rfl
  · show (db.conversations.insert conv).select _ = _
    rw [Table.select_insert, if_neg (by simpa using hcustomer), List.append_nil]
  · exact congrArg _ (List.filter_congr fun r hr => hvisible _ (hlinked.1 r hr).ne)
  · exact congrArg _ (List.filter_congr fun r hr => hvisible _ (hlinked.2 r hr).ne)

theorem aside_opened (hlinked : Linked db) {conv : Conversation} (hcustomer : conv.customerId ≠ v) :
    Aside v db (withConversation conv db) where
  view := .inr (viewFor_opened hlinked hcustomer)
  linked := ⟨hlinked.1.imp fun _ hm => hm.trans (Nat.lt_succ_self _),
    hlinked.2.imp fun _ hn => hn.trans (Nat.lt_succ_self _)⟩
  users := rfl

theorem Aside.refl (hlinked : Linked db) : Aside v db db := ⟨.inl rfl, hlinked, rfl⟩

theorem aside_runAiChat (hlinked : Linked db) {call : AiChatIn} (hne : call.userId ≠ v)
    (huser : call.user.role ≠ .admin) : Aside v db (final (runAiChat g call) db) := by
  unfold runAiChat
  cases hrate : call.rate with
  | error e =>
    have hraises : Raises (asked g call) db db := by
      unfold asked
      exact raises_ofExcept_bind hrate _ _
    rw [(hraises.bind _).final]
    exact .refl hlinked
  | ok u =>
    obtain ⟨c, t, -, hopens, hreturns⟩ | ⟨-, hraises⟩ := conversationFor_or g call db
    · have hasked : Returns (asked g call) db
          (c, respond g call.brain call.message (llmHistory t c 12)) t := by
        unfold asked
        exact Returns.ofExcept_bind hrate (hreturns.bind (Returns.get_bind (returns_pure _ _)))
      rw [hasked.final_bind]
      -- the conversation belongs to the user of the call
      have hpaired := (paired_conversationFor (g := g) (rfl : SameView call.userId db db) rfl
        huser).outcome
      rw [hreturns.outcome] at hpaired
      obtain ⟨conv, hconv, hcustomer⟩ : Own call.userId t c := by
        cases hpaired with
        | ok hshared => exact hshared.2.2
      have hopened : Aside v db t := by
        cases hopens with
        | named => exact .refl hlinked
        | support => exact .refl hlinked
        | new category => exact aside_opened hlinked hne
      have hother : conv.customerId ≠ v := by
        rw [hcustomer]
        exact hne
      have hsees : Sees v c t.users (viewFor v t) t :=
        ⟨rfl, ⟨conv, hconv, hother⟩, hopened.linked, rfl⟩
      have hfinal : ∀ response : List (List Turn) × Answer,
          Sees v c t.users (viewFor v t) (final (do
          let _ ← sendMessage g call.now c (some call.userId) call.audience.role
            { content := some call.message } true
          let _ ← sendMessage g call.now c none "ai" { content := some response.2.reply } true
          if "handover_human" ∈ response.2.actions ∧ response.2.blocked = false then
            handoverToAdmin g call.now c
          return (c, response.2)) t) := by
        intro response
        refine Keeps.final ?_ hsees
        refine Keeps.bind (keeps_sendMessage call.now _ _ _ true) fun _ =>
          Keeps.bind (keeps_sendMessage call.now _ _ _ true) fun _ => ?_
        split_ifs
        · exact (keeps_handoverToAdmin call.now).bind fun _ => keeps_pure _
        · exact keeps_pure _
      have hafter := hfinal (respond g call.brain call.message (llmHistory t c 12))
      exact ⟨by rw [hafter.view]; exact hopened.view, hafter.linked,
        hafter.users.trans hopened.users⟩
    · have hraises' : Raises (asked g call) db db := by
        unfold asked
        exact Raises.ofExcept_bind hrate (hraises.bind _)
      rw [(hraises'.bind _).final]
      exact .refl hlinked

/-- A call of another user changes nothing of what the user sees but that a number is taken for a
new conversation. -/
theorem aside_aiChat (hlinked : Linked db) {w : World} {r : AiRequest} (hne : r.userId ≠ v)
    (hplain : Plain r.userId db) : Aside v db (final (aiChat g libs w r) db) := by
  unfold aiChat
  rw [final_get_bind]
  cases huser : (db.users.get? r.userId).filter fun u => u.isActive with
  | none => exact .refl hlinked
  | some user =>
    rw [final_orRaise_some_bind]
    exact aside_runAiChat hlinked hne (hplain user (Option.filter_eq_some_iff.1 huser).1)

/-- It is a call of another user, who is no admin. -/
def Happening.Others (v : ℕ) (users : Table User) : Happening → Prop
  | .call r _ => r.userId ≠ v ∧ ∀ user ∈ users.get? r.userId, user.role ≠ .admin
  | .other _ => False

/-- Any number of such calls takes numbers for some new conversations, and that is all. -/
theorem view_of_others {s : Served} {es : List Happening} (hlinked : Linked s.store)
    (hes : ∀ e ∈ es, e.Others v s.store.users) :
    ∃ n, viewFor v (run (happen g libs) s es).store = View.opened^[n] (viewFor v s.store) := by
  induction es generalizing s with
  | nil => exact ⟨0, rfl⟩
  | cons e es ih =>
    have hfirst := hes e (List.mem_cons_self ..)
    cases e with
    | other change => exact hfirst.elim
    | call r w =>
      have haside : Aside v s.store (happen g libs s (.call r w)).store :=
        aside_aiChat hlinked hfirst.1 hfirst.2
      have hrest : ∀ e ∈ es, e.Others v (happen g libs s (.call r w)).store.users := by
        rw [haside.users]
        exact fun e he => hes e (List.mem_cons_of_mem _ he)
      obtain ⟨n, hn⟩ := ih haside.linked hrest
      rw [run_cons, hn]
      obtain hsame | hopened := haside.view
      · exact ⟨n, by rw [hsame]⟩
      · exact ⟨n + 1, by rw [hopened, Function.iterate_succ_apply]⟩

theorem next_opened (view : View) (n : ℕ) : (View.opened^[n] view).next = view.next + n := by
  induction n generalizing view with
  | zero => rfl
  | succ n ih =>
    rw [Function.iterate_succ_apply, ih]
    simp only [View.opened]
    omega

/-- So the user has the same view after any such calls on both sides, if as many conversations were
opened. -/
theorem SameView.others {s s' : Served} {es es' : List Happening} (h : SameView v s.store s'.store)
    (hlinked : Linked s.store) (hlinked' : Linked s'.store)
    (hes : ∀ e ∈ es, e.Others v s.store.users) (hes' : ∀ e ∈ es', e.Others v s'.store.users)
    (hnext : (run (happen g libs) s es).store.conversations.next =
      (run (happen g libs) s' es').store.conversations.next) :
    SameView v (run (happen g libs) s es).store (run (happen g libs) s' es').store := by
  obtain ⟨n, hn⟩ : ∃ n, viewFor v (run (happen g libs) s es).store =
      View.opened^[n] (viewFor v s.store) := view_of_others hlinked hes
  obtain ⟨n', hn'⟩ : ∃ n, viewFor v (run (happen g libs) s' es').store =
      View.opened^[n] (viewFor v s'.store) := view_of_others hlinked' hes'
  have hopened : (viewFor v s.store).next + n = (viewFor v s'.store).next + n' := by
    rw [← next_opened, ← next_opened, ← hn, ← hn']
    exact hnext
  rw [show viewFor v s.store = viewFor v s'.store from h, Nat.add_left_cancel_iff] at hopened
  unfold SameView
  rw [hn, hn', hopened, show viewFor v s.store = viewFor v s'.store from h]

end Others

end Chat

end SweetCrust

import SweetCrust.Data.Rows
import SweetCrust.Lib.Decimal
import SweetCrust.Lib.Session
import SweetCrust.Lib.Text

/-!
# Conversations and their messages

Three services share the tables `conversations` and `chat_messages`: the checkout service has
the chats of customers, the store-ops service those of shops and the bakery's side of all of
them, and the AI service its own.  Each has functions of its own that send a message and that
mark messages as read when a conversation is opened.

The columns that name an order, a return or a cake, and the `metadata_json` of a message, are
read by no modelled function.  Rows of `chat_messages` are in the order of `created_at`.

* `Store` — the tables.
* `filterUserMessage` — what the guardrails decide about a text.
* `sendMessage`, `listMessages`, `handoverToAdmin` of the AI service, `CustomerChats`, `ShopChats`
  and `AdminChats` — the functions of each service.
* `posted`, `opened` — what a message, and opening a conversation, do to the tables.
-/

namespace SweetCrust

open Tabular Session Text Decimal

namespace Chat

/-! ## The tables -/

inductive ChatCategory
  | general | order | customCake | delivery | return | ai | retailer | retailerAi
  deriving DecidableEq, Inhabited

def ChatCategory.value : ChatCategory → String
  | .general => "general"
  | .order => "order"
  | .customCake => "custom_cake"
  | .delivery => "delivery"
  | .return => "return"
  | .ai => "ai"
  | .retailer => "retailer"
  | .retailerAi => "retailer_ai"

def ChatCategory.all : List ChatCategory :=
  [.general, .order, .customCake, .delivery, .return, .ai, .retailer, .retailerAi]

inductive MessageType
  | text | image | video | voice | product | location | invoice | paymentLink | orderCard
  | returnCard | system
  deriving DecidableEq, Inhabited

def MessageType.value : MessageType → String
  | .text => "text"
  | .image => "image"
  | .video => "video"
  | .voice => "voice"
  | .product => "product"
  | .location => "location"
  | .invoice => "invoice"
  | .paymentLink => "payment_link"
  | .orderCard => "order_card"
  | .returnCard => "return_card"
  | .system => "system"

def MessageType.all : List MessageType :=
  [.text, .image, .video, .voice, .product, .location, .invoice, .paymentLink, .orderCard,
    .returnCard, .system]

/-- `x.strip().lower()`. -/
def normal (text : String) : String := String.ofList (lower (strip isSpace text.toList))

/-- `ChatCategory(cat)`, or `general` where there is none. -/
def ChatCategory.ofText (text : String) : ChatCategory :=
  (ChatCategory.all.find? fun c => c.value = normal text).getD .general

/-- `MessageType(mt)`, or `text` where there is none. -/
def MessageType.ofText (text : String) : MessageType :=
  (MessageType.all.find? fun t => t.value = normal ((truthy (some text)).getD "text")).getD .text

structure Conversation where
  category : ChatCategory := .general
  customerId : ℕ
  adminId : Option ℕ := none
  isAi : Bool := false
  aiHandedOver : Bool := false
  lastMessage : Option String := none
  unreadCustomer : ℤ := 0
  unreadAdmin : ℤ := 0
  updatedAt : ℕ
  deriving DecidableEq, Inhabited

structure ChatMessage where
  conversationId : ℕ
  senderId : Option ℕ
  senderRole : String
  messageType : MessageType := .text
  content : Option String
  mediaUrl : Option String := none
  isDelivered : Bool := false
  isRead : Bool := false
  deriving DecidableEq, Inhabited

/-- A row of `notifications` about a conversation. -/
structure Notice where
  userId : ℕ
  type : String
  title : String
  body : String
  conversationId : ℕ
  offline : Option Bool := none
  deriving DecidableEq, Inhabited

structure Store where
  users : Table User
  conversations : Table Conversation := .empty
  messages : Table ChatMessage := .empty
  notices : Table Notice := .empty

/-- A handler of one of the services. -/
abbrev Service (α : Type) : Type := Sess AppError Store α

/-! ## The guardrails -/

/-- What the patterns of `guardrails.py` come to, with the guardrails enabled. -/
structure Guardrails where
  /-- Why a text, stripped and not empty, is refused between people. -/
  refusesPeer : String → Option String
  /-- Why it is refused in front of the model. -/
  refusesAi : String → Option String
  filterAiReply : String → String

/-- Guardrails that refuse nothing. -/
def lenient : Guardrails := ⟨fun _ => none, fun _ => none, id⟩

inductive Mode
  | ai | peer
  deriving DecidableEq

/-- What `filter_user_message` answers. -/
inductive Gate
  | allowed (text : String)
  | refused (reply reason : String)
  deriving DecidableEq

def Gate.isAllowed : Gate → Bool
  | .allowed _ => true
  | .refused _ _ => false

/-- `REFUSAL`. -/
def refusal : String :=
  "I can only help with SweetCrust topics — products, shop orders, credit/udhaar, " ++
    "payments, delivery, returns, custom cakes, and invoices. " ++
    "Ask about your order, catalog, or say talk to owner."

def stripped (text : String) : String := String.ofList (strip isSpace text.toList)

/-- `filter_user_message`. -/
def filterUserMessage (g : Guardrails) (mode : Mode) (text : String) : Gate :=
  if stripped text = "" then .refused refusal "empty"
  else
    match (match mode with | .ai => g.refusesAi | .peer => g.refusesPeer) (stripped text) with
    | some reason => .refused refusal reason
    | none => .allowed (stripped text)

/-! ## Messages -/

/-- `_first_admin`. -/
def firstAdmin (db : Store) : Option (ℕ × User) := db.users.first? fun u => u.role = .admin

/-- `bool(user and user.is_online)`. -/
def online (user : Option User) : Bool := user.elim false User.isOnline

/-- `text[:500]`. -/
def preview (text : String) : String := String.ofList (text.toList.take 500)

/-- The conversation has a new last message. -/
def touched (now : ℕ) (text : String) (c : Conversation) : Conversation :=
  { c with lastMessage := some (preview text), updatedAt := now }

def withUnreadAdmin (c : Conversation) : Conversation := { c with unreadAdmin := c.unreadAdmin + 1 }

def withUnreadCustomer (c : Conversation) : Conversation :=
  { c with unreadCustomer := c.unreadCustomer + 1 }

/-- A message, the change of its conversation, and a notification. -/
def posted (conversationId : ℕ) (change : Conversation → Conversation) (message : ChatMessage)
    (notice : Option Notice) (db : Store) : Store :=
  { db with
    conversations := db.conversations.modify conversationId change
    messages := db.messages.insert message
    notices := notice.elim db.notices db.notices.insert }

/-- A conversation that is opened: it is changed, and some of its messages are marked. -/
def opened (conversationId : ℕ) (change : Conversation → Conversation)
    (mark : ChatMessage → ChatMessage) (db : Store) : Store :=
  { db with
    conversations := db.conversations.modify conversationId change
    messages := db.messages.mapRows fun _ m => if m.conversationId = conversationId then mark m else m }

/-- `is_read = True` and `is_delivered = True`. -/
def seen (m : ChatMessage) : ChatMessage := { m with isDelivered := true, isRead := true }

/-- The messages of a conversation, oldest first. -/
def messagesOf (db : Store) (conversationId : ℕ) : List (ℕ × ChatMessage) :=
  db.messages.select fun m => m.conversationId = conversationId

/-- The body of a notification: `content or ("📷 Photo" if … else "New message")`. -/
def noticeBody (content : Option String) (messageType : String) : String :=
  (truthy content).getD (if messageType = "image" then "📷 Photo" else "New message")

/-- `(content or message_type)`. -/
def shown (content : Option String) (messageType : String) : String :=
  (truthy content).getD messageType

/-- What a caller sends. -/
structure MessageIn where
  content : Option String := none
  messageType : String := "text"
  mediaUrl : Option String := none
  deriving Inhabited

def fromUser (role : String) : Bool := role = "customer" ∨ role = "retailer"

def fromBakery (role : String) : Bool := role = "admin" ∨ role = "ai" ∨ role = "system"

section Sending

-- Which roles count as a user differs between the services.
variable (users : String → Bool)

/-- What a message does to the counters of its conversation, by the role of its sender. -/
def counted (role : String) (c : Conversation) : Conversation :=
  if users role then withUnreadAdmin c
  else if fromBakery role then withUnreadCustomer c
  else c

/-- The notification of a message. -/
def noticeOf (db : Store) (conversationId : ℕ) (conv : Conversation) (role : String)
    (body : MessageIn) : Option Notice :=
  if users role then
    (firstAdmin db).map fun a =>
      { userId := a.1, type := "chat"
        title := "New " ++ (if role = "retailer" then "shop" else "customer") ++ " message" ++
          (if a.2.isOnline then "" else " (offline — will see when online)")
        body := noticeBody body.content body.messageType
        conversationId, offline := some (! a.2.isOnline) }
  else if fromBakery role then
    (db.users.get? conv.customerId).map fun peer =>
      { userId := conv.customerId, type := "chat"
        title := "SweetCrust replied" ++
          (if peer.isOnline then "" else " (you'll see this when back online)")
        body := noticeBody body.content body.messageType
        conversationId, offline := some (! peer.isOnline) }
  else none

/-- The row of a message. -/
def messageOf (db : Store) (conversationId : ℕ) (conv : Conversation) (senderId : Option ℕ)
    (role : String) (body : MessageIn) : ChatMessage where
  conversationId := conversationId
  senderId := senderId
  senderRole := role
  messageType := .ofText body.messageType
  content := body.content
  mediaUrl := body.mediaUrl
  isDelivered := if users role then online ((firstAdmin db).map Prod.snd)
    else online (db.users.get? conv.customerId)

/-- The tables after a message that is accepted. -/
def sent (now conversationId : ℕ) (conv : Conversation) (senderId : Option ℕ) (role : String)
    (body : MessageIn) (db : Store) : Store :=
  posted conversationId
    (fun c => counted users role (touched now (shown body.content body.messageType) c))
    (messageOf users db conversationId conv senderId role body)
    (noticeOf users db conversationId conv role body) db

end Sending

/-! ## The AI service -/

/-- `mode` of `send_message`. -/
def modeOf (conv : Conversation) : Mode :=
  if conv.isAi = true ∨ conv.category ∈ [ChatCategory.ai, .retailerAi] then .ai else .peer

/-- The content that passes the guardrails of `send_message`. -/
def gated (g : Guardrails) (conv : Conversation) (role : String) (body : MessageIn)
    (skipGuardrails : Bool) : Except AppError (Option String) :=
  match truthy body.content with
  | none => .ok body.content
  | some text =>
    if skipGuardrails = false ∧ fromUser role ∧ body.messageType = "text" then
      match filterUserMessage g (modeOf conv) text with
      | .allowed clean => .ok (some clean)
      | .refused reply _ => .error (.badRequest reply)
    else .ok (some text)

/-- `if sender_role == "ai" and content: content = filter_ai_reply(content)`. -/
def aiFiltered (g : Guardrails) (role : String) (content : Option String) : Option String :=
  if role = "ai" then ((truthy content).map g.filterAiReply).or content else content

/-- `send_message` of the AI service: the key of the message. -/
def sendMessage (g : Guardrails) (now conversationId : ℕ) (senderId : Option ℕ) (role : String)
    (body : MessageIn) (skipGuardrails : Bool) : Service ℕ := do
  let db ← get
  let conv ← orRaise (db.conversations.get? conversationId) (.notFound "Conversation not found")
  let content ← ofExcept (gated g conv role body skipGuardrails)
  modify (sent fromUser now conversationId conv senderId role
    { body with content := aiFiltered g role content })
  commit
  return db.messages.next

/-- `require_conversation`. -/
def requireConversation (conversationId userId : ℕ) (user : User) : Service Conversation := do
  let db ← get
  let conv ← orRaise (db.conversations.get? conversationId) (.notFound "Conversation not found")
  raiseIf (user.role ≠ .admin ∧ conv.customerId ≠ userId) (.forbidden "Forbidden")
  return conv

def noUnreadAdmin (c : Conversation) : Conversation := { c with unreadAdmin := 0 }

def noUnreadCustomer (c : Conversation) : Conversation := { c with unreadCustomer := 0 }

/-- The messages of the other side are delivered and read. -/
def seenIf (p : String → Bool) (m : ChatMessage) : ChatMessage := if p m.senderRole then seen m else m

/-- `list_messages` of the AI service. -/
def listMessages (conversationId userId : ℕ) (user : User) : Service (List (ℕ × ChatMessage)) := do
  let _ ← requireConversation conversationId userId user
  modify (if user.role = .admin then opened conversationId noUnreadAdmin (seenIf fromUser)
    else opened conversationId noUnreadCustomer (seenIf fromBakery))
  commit
  return messagesOf (← get) conversationId

/-- What the customer is told at a handover. -/
def handoverText : String := "Connecting you to SweetCrust bakery owner. Please wait…"

theorem handoverText_ne : handoverText ≠ "" := by decide

/-- The conversation is handed over. -/
def handedOver (admin : Option ℕ) (c : Conversation) : Conversation :=
  { c with isAi := false, aiHandedOver := true, adminId := admin.or c.adminId }

/-- `handover_to_admin`, up to its system message. -/
def handing (conversationId : ℕ) (db : Store) : Store :=
  { db with
    conversations := db.conversations.modify conversationId
      (handedOver ((firstAdmin db).map Prod.fst))
    notices := ((firstAdmin db).map fun a : ℕ × User =>
      { userId := a.1, type := "ai", title := "AI chat escalated"
        body := "A shop/customer needs human support", conversationId : Notice }).elim
      db.notices db.notices.insert }

/-- `handover_to_admin`. -/
def handoverToAdmin (g : Guardrails) (now conversationId : ℕ) : Service Unit := do
  let db ← get
  let _ ← orRaise (db.conversations.get? conversationId) (.notFound "Conversation not found")
  modify (handing conversationId)
  let _ ← sendMessage g now conversationId none "system"
    { content := some handoverText, messageType := "system" } true

/-- What `create_conversation` is asked for. -/
structure ConversationIn where
  category : String
  isAi : Bool := false
  initialMessage : Option String := none

/-- `create_conversation`: the key of the conversation. -/
def createConversation (g : Guardrails) (now customerId : ℕ) (data : ConversationIn) :
    Service ℕ := do
  let db ← get
  let category := normal ((truthy (some data.category)).getD "general")
  modify fun db =>
    { db with
      conversations := db.conversations.insert
        { category := .ofText category, customerId, isAi := data.isAi, updatedAt := now } }
  commit
  match truthy data.initialMessage with
  | none => return db.conversations.next
  | some text =>
    let role := if "retailer".toList.isPrefixOf category.toList then "retailer" else "customer"
    let _ ← sendMessage g now db.conversations.next (some customerId) role
      { content := some text } false
    return db.conversations.next

/-- The category of a shop's support. -/
def supportCategory (ai : Bool) : ChatCategory := if ai then .retailerAi else .retailer

/-- The support conversation of a shop that was updated last. -/
def latestSupport (db : Store) (retailerId : ℕ) (ai : Bool) : Option (ℕ × Conversation) :=
  (db.conversations.select fun c =>
    c.customerId = retailerId ∧ c.category = supportCategory ai).argmax fun r => r.2.updatedAt

/-- `get_or_create_retailer_support`: the key of the conversation. -/
def getOrCreateRetailerSupport (g : Guardrails) (now retailerId : ℕ) (ai : Bool) : Service ℕ := do
  let db ← get
  match (latestSupport db retailerId ai).filter fun r =>
      ai = false ∨ r.2.isAi = true ∨ r.2.aiHandedOver = false with
  | some r => return r.1
  | none =>
    createConversation g now retailerId { category := (supportCategory ai).value, isAi := ai }

/-! ## The chats of customers -/

namespace CustomerChats

/-- `send_message` of the checkout service. -/
def sendMessage (now conversationId : ℕ) (senderId : Option ℕ) (role : String)
    (body : MessageIn) : Service ℕ := do
  let db ← get
  let conv ← orRaise (db.conversations.get? conversationId) (.notFound "Conversation not found")
  raiseIf (role = "customer" ∧ truthy body.content = none ∧ body.messageType = "text" ∧
    truthy body.mediaUrl = none) (.badRequest "Message content required")
  modify (sent (fun r => r = "customer") now conversationId conv senderId role body)
  commit
  return db.messages.next

/-- `list_messages` of the checkout service. -/
def listMessages (conversationId userId : ℕ) : Service (List (ℕ × ChatMessage)) := do
  let db ← get
  let conv ← orRaise (db.conversations.get? conversationId) (.notFound "Conversation not found")
  raiseIf (conv.customerId ≠ userId) (.forbidden "Forbidden")
  modify (opened conversationId noUnreadCustomer (seenIf fromBakery))
  commit
  return messagesOf (← get) conversationId

end CustomerChats

/-! ## The chats of shops, and the side of the bakery -/

/-- Messages that are not read, of any role but one, are delivered and read. -/
def seenUnless (role : String) (m : ChatMessage) : ChatMessage :=
  if m.senderRole ≠ role ∧ m.isRead = false then seen m else m

namespace ShopChats

/-- `list_messages` of the store-ops service. -/
def listMessages (conversationId userId : ℕ) : Service (List (ℕ × ChatMessage)) := do
  let db ← get
  let conv ← orRaise (db.conversations.get? conversationId) (.notFound "Conversation not found")
  raiseIf (conv.customerId ≠ userId) (.forbidden "Forbidden")
  modify (opened conversationId
    (fun c => if 0 < c.unreadCustomer then noUnreadCustomer c else c) (seenUnless "retailer"))
  commit
  return messagesOf (← get) conversationId

/-- `send_message` of the store-ops service. -/
def sendMessage (now conversationId userId : ℕ) (body : MessageIn) : Service ℕ := do
  let db ← get
  let conv ← orRaise (db.conversations.get? conversationId) (.notFound "Conversation not found")
  raiseIf (conv.customerId ≠ userId) (.forbidden "Forbidden")
  let message : ChatMessage :=
    { conversationId, senderId := some userId, senderRole := "retailer"
      messageType := .ofText body.messageType, content := body.content, mediaUrl := body.mediaUrl }
  let notice := (firstAdmin db).map fun a =>
    { userId := a.1, type := "chat", title := "New shop message"
      body := (truthy body.content).getD "New message", conversationId : Notice }
  modify (posted conversationId
    (fun c => withUnreadAdmin (touched now (shown body.content body.messageType) c)) message notice)
  commit
  return db.messages.next

end ShopChats

namespace AdminChats

/-- `chat_messages`. -/
def chatMessages (conversationId : ℕ) : Service (List (ℕ × ChatMessage)) := do
  let db ← get
  let _ ← orRaise (db.conversations.get? conversationId) (.notFound "Conversation not found")
  modify (opened conversationId
    (fun c => if 0 < c.unreadAdmin then noUnreadAdmin c else c) (seenUnless "admin"))
  commit
  return messagesOf (← get) conversationId

/-- A conversation that the bakery writes in. -/
def answered (content : String) (c : Conversation) : Conversation :=
  { c with
    lastMessage := some (preview content), unreadCustomer := c.unreadCustomer + 1
    aiHandedOver := true }

/-- `send_chat`. -/
def sendChat (conversationId adminId : ℕ) (body : MessageIn) : Service ℕ := do
  let db ← get
  let _ ← orRaise (db.conversations.get? conversationId) (.notFound "Conversation not found")
  let content := (truthy body.content).getD ""
  modify (posted conversationId (answered content)
    { conversationId, senderId := some adminId, senderRole := "admin", content := some content } none)
  commit
  return db.messages.next

end AdminChats

/-! ## What the functions leave -/

section Finals

variable {db : Store} {now c userId : ℕ} {senderId : Option ℕ} {role : String} {body : MessageIn}
  {conv : Conversation}

variable (now senderId) in
/-- A message that is accepted is sent, in one commit. -/
theorem sendMessage_run {g : Guardrails} {skip : Bool} {content : Option String}
    (hconv : db.conversations.get? c = some conv) (hgate : gated g conv role body skip = .ok content) :
    sendMessage g now c senderId role body skip db =
      ([sent fromUser now c conv senderId role { body with content := aiFiltered g role content } db],
        .ok (db.messages.next, sent fromUser now c conv senderId role
          { body with content := aiFiltered g role content } db)) := by
  unfold sendMessage
  rw [get_bind, hconv, orRaise_some_bind, hgate]
  rfl

theorem returns_sendMessage {g : Guardrails} {skip : Bool} {content : Option String}
    (hconv : db.conversations.get? c = some conv) (hgate : gated g conv role body skip = .ok content) :
    Returns (sendMessage g now c senderId role body skip) db db.messages.next
      (sent fromUser now c conv senderId role { body with content := aiFiltered g role content }
        db) := by
  have hrun := sendMessage_run now senderId hconv hgate
  exact ⟨congrArg Prod.snd hrun, congrArg (fun r => r.1.getLastD db) hrun⟩

theorem final_sendMessage (g : Guardrails) (skip : Bool) :
    final (sendMessage g now c senderId role body skip) db = db ∨
      ∃ conv content, db.conversations.get? c = some conv ∧
        final (sendMessage g now c senderId role body skip) db =
          sent fromUser now c conv senderId role { body with content } db := by
  cases hconv : db.conversations.get? c with
  | none =>
    left
    unfold sendMessage
    rw [final_get_bind, hconv]
    rfl
  | some conv =>
    cases hgate : gated g conv role body skip with
    | error e =>
      left
      unfold sendMessage
      rw [final_get_bind, hconv, final_orRaise_some_bind, hgate]
      rfl
    | ok content =>
      right
      exact ⟨conv, _, rfl, (returns_sendMessage hconv hgate).final⟩

/-- The conversation is there, and the user may see it. -/
def Allowed (db : Store) (c userId : ℕ) (user : User) (conv : Conversation) : Prop :=
  db.conversations.get? c = some conv ∧ ¬ (user.role ≠ .admin ∧ conv.customerId ≠ userId)

theorem requireConversation_or (db : Store) (c userId : ℕ) (user : User) :
    (∃ conv, Allowed db c userId user conv ∧
        Returns (requireConversation c userId user) db conv db) ∨
      (¬ ∃ conv, Allowed db c userId user conv) ∧
        Raises (requireConversation c userId user) db db := by
  cases hconv : db.conversations.get? c with
  | none =>
    refine Or.inr ⟨fun ⟨conv, h⟩ => ?_, Raises.get_bind (raises_orRaise_bind hconv ..)⟩
    rw [h.1] at hconv
    cases hconv
  | some conv =>
    by_cases h : user.role ≠ .admin ∧ conv.customerId ≠ userId
    · refine Or.inr ⟨fun ⟨conv', h'⟩ => ?_, ?_⟩
      · rw [h'.1] at hconv
        cases hconv
        exact h'.2 h
      · exact Raises.get_bind (Raises.orRaise_bind hconv (raises_raiseIf_bind h ..))
    · refine Or.inl ⟨conv, ⟨hconv, h⟩, ?_⟩
      exact Returns.get_bind (Returns.orRaise_bind hconv
        (Returns.raiseIf_bind h (returns_pure _ _)))

/-- Opening a conversation in the AI service clears the counter of one's own side. -/
theorem final_listMessages (db : Store) (c userId : ℕ) (user : User) :
    final (listMessages c userId user) db = db ∨
      final (listMessages c userId user) db = opened c noUnreadAdmin (seenIf fromUser) db ∨
      final (listMessages c userId user) db = opened c noUnreadCustomer (seenIf fromBakery) db := by
  unfold listMessages
  rcases requireConversation_or db c userId user with ⟨conv, -, hreturns⟩ | ⟨-, hraises⟩
  · right
    rw [hreturns.final_bind, final_modify_commit_bind, final_get_bind]
    by_cases hadmin : user.role = .admin
    · rw [if_pos hadmin]
      exact Or.inl rfl
    · rw [if_neg hadmin]
      exact Or.inr rfl
  · exact Or.inl (hraises.bind _).final

/-- A conversation that is handed over is changed, and told so. -/
theorem final_handoverToAdmin (g : Guardrails) (now c : ℕ) (db : Store) :
    final (handoverToAdmin g now c) db =
      match db.conversations.get? c with
      | none => db
      | some conv => sent fromUser now c (handedOver ((firstAdmin db).map Prod.fst) conv) none
          "system" { content := some handoverText, messageType := "system" } (handing c db) := by
  unfold handoverToAdmin
  rw [final_get_bind]
  cases hconv : db.conversations.get? c with
  | none => rfl
  | some conv =>
    rw [final_orRaise_some_bind]
    have hhanded : (handing c db).conversations.get? c =
        some (handedOver ((firstAdmin db).map Prod.fst) conv) := by
      simp [handing, hconv]
    have hgate : gated g (handedOver ((firstAdmin db).map Prod.fst) conv) "system"
        { content := some handoverText, messageType := "system" } true =
          .ok (some handoverText) := by
      simp only [gated, truthy_some handoverText_ne]
      exact if_neg (by simp)
    have hrun := sendMessage_run now none hhanded hgate
    unfold final commits
    rw [modify_bind, bind_run, hrun]
    rfl

end Finals

end Chat

end SweetCrust

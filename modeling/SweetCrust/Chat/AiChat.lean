import SweetCrust.Catalog.Listing
import SweetCrust.Chat.Conversations

/-!
# Chats with the assistant

`_run_ai_chat` finds or opens the conversation, reads what was said in it, has the assistant
answer, and stores the message and the answer behind the back of the guardrails.  The assistant
tries an agent with tools, then a linear graph, then rules without a model.

What the model, its tools and the parsing of its output do with the messages they are given is a
parameter (`Brain`), another one for each call.

* `Turn`, `llmHistory`, `historyMessages` — what was said, as the model is shown it.
* `respond` — the answer, and the prompts that were passed to the model.
* `asked`, `runAiChat` — `_run_ai_chat` up to the answer, and as a whole.
* `On`, `Opens`, `conversationFor_or` — the conversation that a call is on.
-/

namespace SweetCrust

open Tabular Session Text Listing

namespace Chat

/-! ## What was said -/

inductive Speaker
  | user | assistant
  deriving DecidableEq

/-- What someone said. -/
structure Turn where
  speaker : Speaker
  content : String
  deriving DecidableEq

/-- `sender_role in ("customer", "retailer", "user")`. -/
def saidByUser (role : String) : Bool := role = "customer" ∨ role = "retailer" ∨ role = "user"

/-- `sender_role in ("ai", "assistant")`. -/
def saidByAssistant (role : String) : Bool := role = "ai" ∨ role = "assistant"

/-- What `llm_history` makes of a message. -/
def turn? (m : ChatMessage) : Option Turn :=
  let text := stripped (m.content.getD "")
  if text = "" then none
  else if saidByUser m.senderRole then some ⟨.user, text⟩
  else if saidByAssistant m.senderRole then some ⟨.assistant, text⟩
  else none

/-- `llm_history`. -/
def llmHistory (db : Store) (conversationId : ℕ) (limit : ℕ) : List Turn :=
  ((messagesOf db conversationId).rtake limit).filterMap fun r => turn? r.2

/-- `_history_messages`: the last eight turns. -/
def historyMessages (history : List Turn) : List Turn :=
  (history.filter fun t => t.content ≠ "").rtake 8

/-! ## The assistant -/

/-- A row of `products`. -/
structure AgentProduct extends ListedProduct where
  isBestseller : Bool := false
  deriving DecidableEq

/-- What the assistant answers: the types of its actions are the part that is acted on.  With the
reply go the products that are shown, and what was used. -/
structure Answer where
  reply : String
  actions : List String := []
  blocked : Bool := false
  products : List (ℕ × AgentProduct) := []
  toolsUsed : List String := []
  ragChunks : ℕ := 0
  deriving DecidableEq

/-- What is behind the assistant in a call. -/
structure Brain where
  /-- `settings.llm_configured and not (settings.ai_dev_mock_llm and not settings.llm_api_key)`. -/
  configured : Bool
  /-- The agentic path gets as far as its model. -/
  ready : Bool
  /-- What becomes of the agent's output; `none` where the agent fails. -/
  agent : List Turn → Option Answer
  /-- What becomes of the output of `node_llm`, or of the completion after it failed. -/
  linear : String → Option Answer
  completion : String → Option Answer
  /-- `_respond_rules`. -/
  rules : String → Answer

/-- An answer with its reply filtered. -/
def Answer.filtered (g : Guardrails) (a : Answer) : Answer :=
  { a with reply := g.filterAiReply a.reply, blocked := false }

/-- The answer to a message that is refused. -/
def blockedAnswer (reply : String) : Answer :=
  { reply, actions := ["handover_human"], blocked := true }

section Answering

variable (g : Guardrails) (brain : Brain)

/-- `run_agentic_chatbot`: the prompts that are passed to the model, and the answer. -/
def runAgenticChatbot (message : String) (history : List Turn) :
    List (List Turn) × Option Answer :=
  match filterUserMessage g .ai message with
  | .refused reply _ => ([], some (blockedAnswer reply))
  | .allowed text =>
    let messages := historyMessages history ++ [⟨.user, text⟩]
    if brain.ready then ([messages], (brain.agent messages).map (Answer.filtered g)) else ([], none)

/-- The linear graph. -/
def runLinear (message : String) : List (List Turn) × Option Answer :=
  match filterUserMessage g .ai message with
  | .refused reply _ => ([], some (blockedAnswer (g.filterAiReply reply)))
  | .allowed text =>
    let messages : List Turn := [⟨.user, text⟩]
    match brain.linear text with
    | some a => ([messages], some (a.filtered g))
    | none => ([messages, messages], (brain.completion text).map (Answer.filtered g))

/-- `run_chatbot_graph`. -/
def runChatbotGraph (message : String) (history : List Turn) : List (List Turn) × Option Answer :=
  match runAgenticChatbot g brain message history with
  | (passed, some a) => (passed, some a)
  | (passed, none) =>
    let linear := runLinear g brain message
    (passed ++ linear.1, linear.2)

/-- `ChatbotAgent.respond`. -/
def respond (message : String) (history : List Turn) : List (List Turn) × Answer :=
  match filterUserMessage g .ai message with
  | .refused reply _ => ([], blockedAnswer reply)
  | .allowed text =>
    let graph := if brain.configured then runChatbotGraph g brain text history else ([], none)
    (graph.1, graph.2.getD ((brain.rules text).filtered g))

end Answering

/-! ## The call -/

inductive Audience
  | customer | retailer
  deriving DecidableEq

/-- A call of `_run_ai_chat`. -/
structure AiChatIn where
  now : ℕ
  userId : ℕ
  user : User
  audience : Audience
  message : String
  conversationId : Option ℕ := none
  brain : Brain
  /-- What `enforce_chat_rate` comes to. -/
  rate : Except AppError Unit := .ok ()

/-- A model that always gives the same answer. -/
def saying (answer : Answer) : Brain where
  configured := true
  ready := true
  agent _ := some answer
  linear _ := some answer
  completion _ := some answer
  rules _ := answer

/-- The shop 2 writes to the assistant. -/
def shopCall (message : String) (brain : Brain) (conversationId : Option ℕ := none) :
    AiChatIn where
  now := 0
  userId := 2
  user := { phone := "9000000002", name := some "Shop", role := .retailer, totalOrders := 0 }
  audience := .retailer
  message := message
  conversationId := conversationId
  brain := brain

/-- `role = 'retailer' if audience == 'retailer' else 'customer'`. -/
def Audience.role : Audience → String
  | .customer => "customer"
  | .retailer => "retailer"

variable (g : Guardrails) (call : AiChatIn)

/-- The conversation that the call is on. -/
def conversationFor : Service ℕ :=
  match call.conversationId.filter fun c => c ≠ 0 with
  | some c => do
    let _ ← requireConversation c call.userId call.user
    return c
  | none =>
    match call.audience with
    | .retailer => getOrCreateRetailerSupport g call.now call.userId true
    | .customer =>
      createConversation g call.now call.userId { category := "ai", isAi := true }

/-- `_run_ai_chat`, up to the answer: the conversation, the prompts and the answer. -/
def asked : Service (ℕ × List (List Turn) × Answer) := do
  ofExcept call.rate
  let c ← conversationFor g call
  let db ← get
  return (c, respond g call.brain call.message (llmHistory db c 12))

/-- `_run_ai_chat`. -/
def runAiChat : Service (ℕ × Answer) := do
  let (c, _, answer) ← asked g call
  let _ ← sendMessage g call.now c (some call.userId) call.audience.role
    { content := some call.message } true
  let _ ← sendMessage g call.now c none "ai" { content := some answer.reply } true
  if "handover_human" ∈ answer.actions ∧ answer.blocked = false then
    handoverToAdmin g call.now c
  return (c, answer)

/-! ## The conversation of a call -/

/-- The conversation that a call is on, or that it opens. -/
def On (db : Store) (call : AiChatIn) (c : ℕ) : Prop :=
  match call.conversationId.filter fun c => c ≠ 0 with
  | some c' => c = c' ∧ ∃ conv, Allowed db c call.userId call.user conv
  | none =>
    match call.audience with
    | .retailer =>
      match (latestSupport db call.userId true).filter fun r =>
          true = false ∨ r.2.isAi = true ∨ r.2.aiHandedOver = false with
      | some r => c = r.1
      | none => c = db.conversations.next
    | .customer => c = db.conversations.next

/-- A conversation is opened, with no message in it yet. -/
def withConversation (conv : Conversation) (db : Store) : Store :=
  { db with conversations := db.conversations.insert conv }

/-- The conversation that `create_conversation` opens. -/
def newConversation (now customerId : ℕ) (category : String) (isAi : Bool) : Conversation where
  category := .ofText (normal ((truthy (some category)).getD "general"))
  customerId := customerId
  isAi := isAi
  updatedAt := now

theorem returns_createConversation (g : Guardrails) (now customerId : ℕ) (category : String)
    (isAi : Bool) (db : Store) :
    Returns (createConversation g now customerId { category, isAi }) db db.conversations.next
      (withConversation (newConversation now customerId category isAi) db) := by
  unfold createConversation
  exact Returns.get_bind (Returns.modify_commit (returns_pure _ _))

variable {g} in
/-- A conversation is found under the key that the call names, or found as the support chat of
its shop, or opened. -/
inductive Opens (db : Store) (call : AiChatIn) : ℕ → Store → Prop
  | named {c : ℕ} {conv : Conversation} (hid : (call.conversationId.filter fun c => c ≠ 0) = some c)
      (hallowed : Allowed db c call.userId call.user conv) : Opens db call c db
  | support {c : ℕ} {conv : Conversation}
      (hid : (call.conversationId.filter fun c => c ≠ 0) = none)
      (hconv : db.conversations.get? c = some conv)
      (hsilent : conv.isAi = true ∨ conv.aiHandedOver = false) : Opens db call c db
  | new (category : String) (hid : (call.conversationId.filter fun c => c ≠ 0) = none) :
      Opens db call db.conversations.next
        (withConversation (newConversation call.now call.userId category true) db)

section Conversation

variable {db : Store} {c : ℕ} {t : Store}

variable {call} in
theorem Opens.messages (h : Opens db call c t) : t.messages = db.messages := by
  cases h <;> rfl

variable {call} in
theorem Opens.get? (h : Opens db call c t) : ∃ conv, t.conversations.get? c = some conv := by
  cases h with
  | named hid hallowed => exact ⟨_, hallowed.1⟩
  | support hid hconv hsilent => exact ⟨_, hconv⟩
  | new category hid =>
    exact ⟨newConversation call.now call.userId category true, by simp [withConversation]⟩

theorem get?_of_latestSupport {retailerId : ℕ} {ai : Bool} {r : ℕ × Conversation}
    (h : latestSupport db retailerId ai = some r) : db.conversations.get? r.1 = some r.2 :=
  Table.get?_eq_some.2 (List.mem_of_mem_filter (List.argmax_mem h))

/-- A call is on a conversation, or it raises. -/
theorem conversationFor_or (db : Store) :
    (∃ c t, (∀ c', On db call c' ↔ c' = c) ∧ Opens db call c t ∧
        Returns (conversationFor g call) db c t) ∨
      (¬ ∃ c, On db call c) ∧ Raises (conversationFor g call) db db := by
  unfold conversationFor On
  cases hid : call.conversationId.filter fun c => c ≠ 0 with
  | some c' =>
    rcases requireConversation_or db c' call.userId call.user with ⟨conv, hallowed, hreturns⟩ |
      ⟨hnone, hraises⟩
    · refine Or.inl ⟨c', db, fun c => ⟨fun h => h.1, ?_⟩, .named hid hallowed,
        hreturns.bind (returns_pure _ _)⟩
      rintro rfl
      exact ⟨rfl, conv, hallowed⟩
    · refine Or.inr ⟨?_, hraises.bind _⟩
      rintro ⟨c, rfl, hallowed⟩
      exact hnone hallowed
  | none =>
    left
    cases call.audience with
    | customer =>
      exact ⟨_, _, fun _ => Iff.rfl, .new "ai" hid, returns_createConversation g ..⟩
    | retailer =>
      unfold getOrCreateRetailerSupport
      simp only
      cases hlatest : (latestSupport db call.userId true).filter fun r =>
          true = false ∨ r.2.isAi = true ∨ r.2.aiHandedOver = false with
      | some r =>
        obtain ⟨hr, hsilent⟩ := Option.filter_eq_some_iff.1 hlatest
        refine ⟨r.1, db, fun _ => Iff.rfl, .support hid (get?_of_latestSupport hr) ?_,
          Returns.get_bind ?_⟩
        · simpa using hsilent
        · rw [hlatest]
          exact returns_pure _ _
      | none =>
        refine ⟨_, _, fun _ => Iff.rfl, .new "retailer_ai" hid, Returns.get_bind ?_⟩
        rw [hlatest]
        exact returns_createConversation g ..

end Conversation

/-! ## What a call leaves -/

/-- The conversation gets one more message, of the role, and stays with whom it is. -/
def Posts (c : ℕ) (role : String) (db db' : Store) : Prop :=
  ∃ change m n, db' = posted c change m n db ∧ m.conversationId = c ∧ m.senderRole = role ∧
    ∀ conv, (change conv).isAi = conv.isAi ∧ (change conv).aiHandedOver = conv.aiHandedOver

section Leaves

variable {db : Store} {c : ℕ}

theorem posts_sent (users : String → Bool) (now : ℕ) (conv : Conversation) (senderId : Option ℕ)
    (role : String) (body : MessageIn) (db : Store) :
    Posts c role db (sent users now c conv senderId role body db) := by
  refine ⟨_, _, _, rfl, rfl, rfl, fun conv => ?_⟩
  unfold counted
  split_ifs <;> exact ⟨rfl, rfl⟩

theorem Posts.get? {role : String} {db' : Store} (h : Posts c role db db')
    (hconv : ∃ conv, db.conversations.get? c = some conv) :
    ∃ conv, db'.conversations.get? c = some conv := by
  obtain ⟨change, m, n, rfl, -⟩ := h
  obtain ⟨conv, hconv⟩ := hconv
  exact ⟨change conv, by simp [posted, hconv]⟩

/-- A message that is not checked is posted. -/
theorem returns_unchecked (now : ℕ) (senderId : Option ℕ) (role : String) (body : MessageIn)
    (hconv : ∃ conv, db.conversations.get? c = some conv) :
    ∃ i db', Posts c role db db' ∧
      Returns (sendMessage g now c senderId role body true) db i db' := by
  obtain ⟨conv, hconv⟩ := hconv
  have hgate : ∃ content, gated g conv role body true = .ok content := by
    unfold gated
    cases truthy body.content with
    | none => exact ⟨_, rfl⟩
    | some text => exact ⟨_, if_neg (by simp)⟩
  obtain ⟨content, hgate⟩ := hgate
  exact ⟨_, _, posts_sent .., returns_sendMessage hconv hgate⟩

/-- A call that gets through posts the message and an answer, and hands the conversation over
where an action says so; the others change nothing. -/
theorem final_runAiChat (db : Store) :
    (∃ c t t' t'', call.rate = .ok () ∧ (∀ c', On db call c' ↔ c' = c) ∧ Opens db call c t ∧
        Posts c call.audience.role t t' ∧ Posts c "ai" t' t'' ∧
        (final (runAiChat g call) db = t'' ∨
          final (runAiChat g call) db = final (handoverToAdmin g call.now c) t'')) ∨
      (call.rate = .ok () → ¬ ∃ c, On db call c) ∧ final (runAiChat g call) db = db := by
  unfold runAiChat
  cases hrate : call.rate with
  | error e =>
    refine Or.inr ⟨nofun, (Raises.bind ?_ _).final⟩
    unfold asked
    exact raises_ofExcept_bind hrate _ _
  | ok u =>
    rcases conversationFor_or g call db with ⟨c, t, hon, hopens, hreturns⟩ | ⟨hnone, hraises⟩
    · left
      have hasked : Returns (asked g call) db
          (c, respond g call.brain call.message (llmHistory t c 12)) t := by
        unfold asked
        exact Returns.ofExcept_bind hrate (hreturns.bind (Returns.get_bind (returns_pure _ _)))
      rw [hasked.final_bind]
      generalize respond g call.brain call.message (llmHistory t c 12) = response
      obtain ⟨i, t', hmessage, hsent⟩ := returns_unchecked g call.now (some call.userId)
        call.audience.role { content := some call.message } hopens.get?
      obtain ⟨j, t'', hanswer, hanswered⟩ := returns_unchecked g call.now none "ai"
        { content := some response.2.reply } (hmessage.get? hopens.get?)
      refine ⟨c, t, t', t'', rfl, hon, hopens, hmessage, hanswer, ?_⟩
      dsimp only
      rw [hsent.final_bind, hanswered.final_bind]
      split_ifs with hhuman
      · right
        exact final_bind_of_reads (fun _ _ => reads_pure _ _) _
      · left
        exact (returns_pure _ _).final
    · refine Or.inr ⟨fun _ => hnone, (Raises.bind ?_ _).final⟩
      unfold asked
      exact Raises.ofExcept_bind hrate (hraises.bind _)

end Leaves

end Chat

end SweetCrust

import SweetCrust.Catalog.Listing
import SweetCrust.Chat.AiChat

/-!
# The agent and its tools

Behind the assistant is a model that is free to call tools, in any order and with any arguments,
and to say what it likes.  The tools look things up for the user of the call: orders, the credit of
a shop, products, and what the documents and the questions of the bakery say.  Where the model
fails a linear graph takes over, and rules where that fails too.

What the libraries and the model do is a parameter: the word characters and the search in the
documents (`Libs`), the calls that the agent makes and what it says (`Mind`), and what
`parse_chatbot_output` reads from it.

* `World` — the tables beside those of the conversations, and the documents.
* `useTool`, `agentReply`, `linearReply`, `respondRules` — the tools, and the three ways to answer.
* `brainOf` — the assistant of a call, as `respond` sees it.
* `visibleTo`, `brainOf_congr` — it depends on the rows of the user and on what is public.
* `onSale_or_named` — the products that the agent shows.
-/

namespace SweetCrust

open Tabular Session Text Decimal Listing

namespace Chat

/-! ## What there is to read -/

/-- A row of `chatbot_faqs`. -/
structure ChatbotFAQ where
  question : String
  answer : String
  isActive : Bool := true
  deriving DecidableEq

/-- One of `BAKERY_DOCS`. -/
structure Doc where
  id : String
  text : String
  deriving DecidableEq

structure World where
  profiles : Table RetailerProfile := .empty
  orders : Table Order := .empty
  products : Table AgentProduct := .empty
  faqs : Table ChatbotFAQ := .empty
  docs : List Doc := []

/-- What the libraries do. -/
structure Libs where
  texts : Texts
  /-- `\w`. -/
  isWord : Char → Bool
  /-- The contents of the best documents, of so many. -/
  bm25 : List Doc → String → ℕ → List String
  /-- `settings.rag_top_k`. -/
  ragTopK : ℕ := 4

/-- `t in s`. -/
def mentions (s t : String) : Bool := Contains t.toList s.toList

/-- `any(k in s for k in keys)`. -/
def mentionsAny (s : String) (keys : List String) : Bool := keys.any (mentions s)

/-- `s.split("\n\n")`. -/
def paragraphs : List Char → List (List Char)
  | [] => [[]]
  | '\n' :: '\n' :: cs => [] :: paragraphs cs
  | c :: cs => (paragraphs cs).modifyHead (List.cons c)

/-- `f"{x:.0f}"`, of an amount. -/
def rupees (x : ℚ) : String := "₹" ++ String.ofList (fixed0 x)

/-- `f"{b}"`. -/
def boolText (b : Bool) : String := if b then "True" else "False"

section Reading

variable (libs : Libs) (w : World) (users : Table User) (userId : ℕ)

/-! ## Documents and questions -/

/-- `_SYNONYMS`. -/
def synonyms : List (String × String) :=
  [("udhaar", "credit shop balance outstanding"), ("credit", "udhaar outstanding credit limit"),
    ("gst", "invoice tax gstin"), ("moq", "minimum order quantity"),
    ("delivery", "dispatch rider delivery eta"), ("refund", "return damaged replacement"),
    ("eggless", "without egg eggless cake")]

/-- `expand_query`. -/
def expandQuery (query : String) : String :=
  let q := stripped query
  let extra := (synonyms.filter fun s => mentions (libs.texts.lower q) s.1).map Prod.snd
  stripped (q ++ " " ++ " ".intercalate extra)

/-- `{t for t in re.split(r"\W+", text) if len(t) > 2}`. -/
def tokens (text : String) : List (List Char) :=
  ((text.toList.splitOnP fun c => !libs.isWord c).filter fun t => 2 < t.length).dedup

structure Chunk where
  source : String
  id : String
  score : ℤ
  text : String
  deriving DecidableEq

/-- The score of a question, for a query. -/
def faqScore (query : String) (faq : ChatbotFAQ) : ℕ :=
  let low := libs.texts.lower query
  let q := libs.texts.lower faq.question
  let a := libs.texts.lower faq.answer
  ((tokens libs low).filter (tokens libs q).contains).length +
    (if q ≠ "" ∧ mentions low q then 5 else 0) +
    (tokens libs low).countP fun t => Contains t a.toList

/-- `faq_chunks`. -/
def faqChunks (query : String) (k : ℕ) : List Chunk :=
  let scored := ((w.faqs.select fun f => f.isActive).map fun r =>
    (faqScore libs query r.2, r)).filter fun s => 0 < s.1
  ((scored.insertionSort fun s t => t.1 ≤ s.1).take k).map fun s =>
    { source := "faq", id := "faq-" ++ String.ofList (natText s.2.1), score := s.1
      text := "Q: " ++ s.2.2.question ++ "\nA: " ++ s.2.2.answer }

/-- `retrieve_context`. -/
def retrieveContext (query : String) (k : ℕ) : String :=
  "\n\n".intercalate ((libs.bm25 w.docs query k).map fun content => "- " ++ content)

/-- `policy_chunks`. -/
def policyChunks (query : String) (k : ℕ) : List Chunk :=
  let raw := retrieveContext libs w (expandQuery libs query) k
  if raw = "" then []
  else (paragraphs raw.toList).zipIdx.filterMap fun part =>
    let text := String.ofList (strip isSpace (part.1.dropWhile fun c => c = '-' ∨ c = ' '))
    if text = "" then none
    else some { source := "policy", id := "policy-" ++ String.ofList (natText part.2)
                score := k - part.2, text }

/-- `hybrid_retrieve`: the context, and the number of its chunks. -/
def hybridRetrieve (query : String) : String × ℕ :=
  let expanded := expandQuery libs query
  let merged := faqChunks libs w expanded (min 3 libs.ragTopK) ++
    policyChunks libs w expanded libs.ragTopK
  let best := (merged.insertionSort fun c d =>
    c.source = "faq" ∧ d.source ≠ "faq" ∨
      (c.source = "faq" ↔ d.source = "faq") ∧ d.score ≤ c.score).take (libs.ragTopK + 2)
  ("\n\n".intercalate (best.map fun c => "[" ++ c.source ++ "] " ++ c.text), best.length)

/-! ## The rows of the user -/

/-- The newest order of the user. -/
def latestOrder : Option (ℕ × Order) :=
  (w.orders.select fun o => o.userId = userId).argmax fun r => r.2.createdAt

/-- The profile of the user. -/
def shopOf : Option RetailerProfile := (w.profiles.first? fun p => p.userId = userId).map Prod.snd

/-- `max(0.0, credit_limit - outstanding_balance)`. -/
def creditLeft (p : RetailerProfile) : ℚ := max 0 (p.creditLimit - p.outstandingBalance)

/-- `_build_user_context`. -/
def buildUserContext (audience : Audience) : String :=
  let user := users.get? userId
  let who := (truthy (user.bind User.name)).getD
    ((user.map User.phone).getD (String.ofList (natText userId)))
  let shop := if audience = .retailer then
    ((shopOf w userId).map fun p =>
      "Shop=" ++ p.shopName ++ "; approval=" ++ p.approvalStatus ++ "; credit_limit=" ++
        rupees p.creditLimit ++ "; outstanding=" ++ rupees p.outstandingBalance ++
        "; available=" ++ rupees (creditLeft p)).toList else []
  let order := ((latestOrder w userId).map fun r =>
    "Latest order: " ++ r.2.orderNumber ++ " status=" ++ r.2.status.value ++ " amount=" ++
      rupees r.2.finalAmount).getD "No recent orders."
  let best := (w.products.select fun p => p.isBestseller && p.isActive).take 5
  let popular := if best = [] then [] else
    ["Bestsellers: " ++
      "; ".intercalate (best.map fun r => r.2.name ++ " " ++ rupees r.2.sellingPrice)]
  "\n".intercalate (["Bakery: SweetCrust. GST invoices, UPI, credit for approved shops, " ++
    "same-day delivery when stocked.", "Audience: " ++ audience.role, "User: " ++ who] ++ shop ++
    [order] ++ popular)

/-! ## The tools -/

/-- What was used: `tool_log` and `rag_chunks`. -/
structure Trace where
  tools : List String := []
  ragChunks : ℕ := 0

structure ProductQuery where
  q : Option String := none
  eggless : Option Bool := none
  sugarFree : Option Bool := none
  maxPrice : Option ℚ := none
  bestseller : Option Bool := none
  deriving DecidableEq

inductive ToolCall
  | agenticRag (query : String)
  | latestOrderStatus (orderNumber : Option String)
  | searchProducts (query : ProductQuery)
  | shopCredit
  | handoverToOwner (reason : String)

def ToolCall.name : ToolCall → String
  | .agenticRag _ => "agentic_rag"
  | .latestOrderStatus _ => "latest_order_status"
  | .searchProducts _ => "search_products"
  | .shopCredit => "shop_credit"
  | .handoverToOwner _ => "handover_to_owner"

/-- The first five products on sale that match, the best rated first. -/
def queryProducts (query : ProductQuery) : List (ℕ × AgentProduct) :=
  let matching := w.products.select fun p =>
    p.isActive && !p.isDraft && (query.eggless = some true → p.isEggless) &&
      (query.sugarFree = some true → p.isSugarFree) &&
      (query.bestseller = some true → p.isBestseller) &&
      query.maxPrice.all (fun high => p.sellingPrice ≤ high) &&
      (truthy query.q).all fun q =>
        libs.texts.like (libs.texts.sqlLower p.name) ("%" ++ libs.texts.lower q ++ "%")
  (matching.insertionSort fun r s => s.2.rating ≤ r.2.rating).take 5

/-- `str(PaymentStatus.PAID)` and so on. -/
def paymentText : PaymentStatus → String
  | .pending => "PaymentStatus.PENDING"
  | .processing => "PaymentStatus.PROCESSING"
  | .paid => "PaymentStatus.PAID"
  | .partiallyPaid => "PaymentStatus.PARTIALLY_PAID"
  | .failed => "PaymentStatus.FAILED"
  | .refunded => "PaymentStatus.REFUNDED"
  | .partiallyRefunded => "PaymentStatus.PARTIALLY_REFUNDED"

/-- `latest_order_status`. -/
def latestOrderStatus (orderNumber : Option String) : String :=
  let order := match truthy orderNumber with
    | some number => (w.orders.first? fun o =>
        libs.texts.equal o.orderNumber number && o.userId = userId).map Prod.snd
    | none => (latestOrder w userId).map Prod.snd
  match order with
  | none => "No orders found for this account."
  | some o => "Order " ++ o.orderNumber ++ ": status=" ++ o.status.value ++ ", amount=" ++
      rupees o.finalAmount ++ ", pay=" ++ paymentText o.paymentStatus

/-- `search_products`. -/
def searchProducts (audience : Audience) (query : ProductQuery) : String :=
  let rows := queryProducts libs w query
  if rows = [] then "No matching products."
  else "\n".intercalate (rows.map fun r =>
    let price := (r.2.shopPrice.filter fun x => x ≠ 0).getD r.2.sellingPrice
    let label := if audience = .retailer then "shop" else "sell"
    String.ofList (natText r.1) ++ "|" ++ r.2.name ++ "|" ++ label ++ "=" ++ rupees price ++
      "|eggless=" ++ boolText r.2.isEggless)

/-- `shop_credit`. -/
def shopCredit (audience : Audience) : String :=
  if audience ≠ .retailer then "Credit/udhaar is for village shops only."
  else match shopOf w userId with
    | none => "Shop profile not found."
    | some p => "approval=" ++ p.approvalStatus ++ "; credit_allowed=" ++
        boolText p.creditAllowed ++ "; limit=" ++ rupees p.creditLimit ++ "; outstanding=" ++
        rupees p.outstandingBalance ++ "; available=" ++ rupees (creditLeft p) ++ "; blocked=" ++
        boolText p.isBlocked

/-- A call of one of the tools of `build_support_tools`; a tool that is not among them is not
called. -/
def useTool (audience : Audience) (call : ToolCall) : StateM Trace (Option String) := do
  if audience ≠ .retailer ∧ call.name = "shop_credit" then return none
  modify fun t => { t with tools := t.tools ++ [call.name] }
  match call with
  | .agenticRag query =>
    let (context, chunks) := hybridRetrieve libs w query
    modify fun t => { t with ragChunks := max t.ragChunks chunks }
    return some (if context = "" then "No matching policy/FAQ found." else context)
  | .latestOrderStatus orderNumber => return some (latestOrderStatus libs w userId orderNumber)
  | .searchProducts query => return some (searchProducts libs w audience query)
  | .shopCredit => return some (shopCredit w userId audience)
  | .handoverToOwner reason => return some ("HANDOVER:" ++ reason)

/-! ## The model -/

/-- A message of the agent's conversation, with the tools that it calls. -/
structure Said where
  byAi : Bool
  content : String
  calls : List String := []

/-- What `parse_chatbot_output` makes of an output. -/
structure Parsed where
  reply : String := ""
  actions : List String := []
  query : ProductQuery := {}

/-- What a prompt is filled in with. -/
structure Prompt where
  audience : Audience
  userContext : String
  ragContext : String
  language : String

/-- The model, for one call of the assistant. -/
structure Mind where
  configured : Bool
  ready : Bool
  /-- The agent, in its conversation; `none` where it fails. -/
  agent : Prompt → List Turn → (ToolCall → StateM Trace (Option String)) →
    StateM Trace (Option (List Said))
  /-- The model without tools, and the completion after it failed. -/
  invoke : Prompt → String → Option String
  completion : Prompt → String → Option String
  parse : String → Parsed

/-- `last_ai`. -/
def lastAi (messages : List Said) : String :=
  ((messages.reverse.find? fun m => m.byAi && m.content ≠ "").map Said.content).getD ""

/-- The keys at the start of a line, with a bar behind them: `(?:^|\n)(\d+)\|`. -/
def namedIds (text : String) : List ℕ :=
  (text.toList.splitOn '\n').filterMap fun line =>
    let digits := line.takeWhile isDecimal
    if digits ≠ [] ∧ (line.drop digits.length).head? = some '|' then
      some (Nat.ofDigitChars 10 (digits.map asciiDigit) 0)
    else none

/-- `_products_from_tool_text`. -/
def productsFromToolText (text : String) : List (ℕ × AgentProduct) :=
  ((namedIds text).take 5).filterMap fun i => (w.products.get? i).map fun p => (i, p)

/-- Some of the fields that are looked at are given. -/
def ProductQuery.given (query : ProductQuery) : Prop :=
  query.q.isSome ∨ query.eggless.isSome ∨ query.maxPrice.isSome ∨ query.bestseller.isSome ∨
    query.sugarFree.isSome

instance (query : ProductQuery) : Decidable query.given := inferInstanceAs (Decidable (_ ∨ _))

/-- The products of an answer of the agent. -/
def agentProducts (query : ProductQuery) (messages : List Said) : List (ℕ × AgentProduct) :=
  let asked := if query.given then queryProducts libs w query else []
  if asked ≠ [] then asked
  else (messages.filter fun m => mentions m.content "|").foldl (fun shown m =>
    let named := productsFromToolText w m.content
    if named ≠ [] then named else shown) []

/-- `actions.append({"type": …})`, where there is none. -/
def withAction (type : String) (actions : List String) : List String :=
  if type ∈ actions then actions else actions ++ [type]

/-- The agent hands over, or the message asks for it. -/
def handsOver (message : String) (messages : List Said) : Bool :=
  ((messages.any fun m => mentions m.content "HANDOVER") ||
    mentionsAny (libs.texts.lower message) ["talk to", "owner", "human", "call me", "callback"]) &&
  mentionsAny (libs.texts.lower message) ["talk to", "owner", "human", "agent", "call", "बात"]

/-- What `run_agentic_chatbot` makes of the agent's conversation, with the number of the chunks that
were found for the message. -/
def agentReply (parse : String → Parsed) (message : String) (seedChunks : ℕ) (trace : Trace)
    (messages : List Said) : Answer :=
  let parsed := parse (lastAi messages)
  let products := agentProducts libs w parsed.query messages
  let actions := if handsOver libs message messages then withAction "handover_human" parsed.actions
    else parsed.actions
  let actions := if products ≠ [] then withAction "show_products" actions else actions
  { reply := (truthy (some parsed.reply)).getD (lastAi messages)
    actions, products
    toolsUsed := if trace.tools ≠ [] then trace.tools else messages.flatMap Said.calls
    ragChunks := if seedChunks ≠ 0 then seedChunks else trace.ragChunks }

/-- What `run_chatbot_graph` makes of an output of the linear graph. -/
def linearReply (parse : String → Parsed) (raw : String) : Answer :=
  let parsed := parse raw
  let products := queryProducts libs w parsed.query
  let actions := if products ≠ [] then withAction "show_products" parsed.actions
    else parsed.actions
  { reply := (truthy (some parsed.reply)).getD raw
    actions, products
    toolsUsed := ["linear_rag"] }

/-! ## The rules -/

/-- The digits that a text starts with, and their number. -/
def leadingNumber (cs : List Char) : Option ℚ :=
  let digits := cs.takeWhile isDecimal
  if digits = [] then none else some (Nat.ofDigitChars 10 (digits.map asciiDigit) 0)

/-- What is behind a prefix. -/
def behind (t cs : List Char) : Option (List Char) :=
  if t <+: cs then some (cs.drop t.length) else none

/-- `₹\s?(\d+)`, at the start of a text. -/
def rupeeBudget (cs : List Char) : Option ℚ := do
  let rest ← behind ['₹'] cs
  leadingNumber (if (rest.head?.any isSpace) then rest.tail else rest)

/-- `under\s+(\d+)`, at the start of a text. -/
def underBudget (cs : List Char) : Option ℚ := do
  let rest ← behind "under".toList cs
  if rest.head?.any isSpace then leadingNumber (rest.dropWhile isSpace) else none

/-- `(\d+)\s*(rs|rupees)`, at the start of a text. -/
def rsBudget (cs : List Char) : Option ℚ := do
  let amount ← leadingNumber cs
  let rest := (cs.dropWhile isDecimal).dropWhile isSpace
  if "rs".toList <+: rest ∨ "rupees".toList <+: rest then some amount else none

/-- `_extract_budget`. -/
def extractBudget (text : String) : Option ℚ :=
  let tails := text.toList.tails
  ((tails.findSome? rupeeBudget).or (tails.findSome? underBudget)).or (tails.findSome? rsBudget)

/-- `s[:n]`. -/
def clip (n : ℕ) (s : String) : String := String.ofList (s.toList.take n)

/-- An answer of the rules. -/
def answering (reply : String) (actions : List String := [])
    (products : List (ℕ × AgentProduct) := []) : Answer where
  reply := reply
  actions := actions
  products := products

/-- `_respond_rules`. -/
def respondRules (audience : Audience) (message : String) : Answer :=
  let text := stripped (libs.texts.lower message)
  let has := mentionsAny text
  if audience = .retailer ∧ has ["credit", "udhaar", "balance", "limit"] then
    match shopOf w userId with
    | some p => answering ("Your shop credit limit is " ++ rupees p.creditLimit ++
        ". Outstanding udhaar " ++ rupees p.outstandingBalance ++ ". Available " ++
        rupees (creditLeft p) ++ ".")
    | none => answering (clip 500 ((truthy (some (hybridRetrieve libs w message).1)).getD
        "Ask the bakery owner to set your credit limit."))
  else if has ["order", "where is my", "track", "मेरा ऑर्डर"] then
    match latestOrder w userId with
    | some r => answering ("Your latest order " ++ r.2.orderNumber ++ " is currently *" ++
        String.ofList (replaceChar '_' ' ' r.2.status.value.toList) ++ "*.") ["open_tracking"]
    | none => answering "I couldn't find an active order. Would you like help browsing cakes?"
  else if has ["eggless", "एगलेस"] then
    answering "Here are popular eggless options from SweetCrust:" ["show_products"]
      ((w.products.select fun p => p.isEggless && p.isActive).take 5)
  else if has ["sugar", "sugar-free", "डायबिटिक"] then
    answering "Sugar-free picks that still taste indulgent:" []
      ((w.products.select fun p => p.isSugarFree && p.isActive).take 5)
  else if has ["under", "₹", "rs", "budget"] then
    let budget := ((extractBudget text).filter fun b => b ≠ 0).getD 1000
    answering ("Birthday / celebration cakes under " ++ rupees budget ++ ":") ["show_products"]
      (((w.products.select fun p => p.sellingPrice ≤ budget && p.isActive).insertionSort
        fun r s => s.2.rating ≤ r.2.rating).take 5)
  else if has ["return", "damaged", "refund", "खराब"] then
    answering ("Yes — if an item arrives damaged, you can request a replacement or refund " ++
      "within 24 hours with photos. I can open the return flow or connect you to the bakery owner.")
      ["open_return", "handover_human"]
  else if has ["custom", "customise", "customize", "design"] then
    answering ("I can help start a custom cake request — occasion, flavour, weight, and a " ++
      "reference photo.") ["start_custom_cake"]
  else if has ["human", "agent", "owner", "talk to", "बात", "call"] then
    answering "I'll connect you to the SweetCrust bakery owner now." ["handover_human"]
  else
    let context := (hybridRetrieve libs w message).1
    if context ≠ "" then
      answering ("From SweetCrust knowledge:\n" ++
        clip 600 (String.ofList ((paragraphs context.toList).headD [])))
    else
      answering ("I'm your SweetCrust assistant — ask about products, shop orders, credit, " ++
        "delivery, or say talk to owner. Here are popular items:") ["show_products"]
        ((w.products.select fun p => p.isBestseller).take 4)

/-! ## The assistant of a call -/

variable (mind : Mind) (audience : Audience) (language : String)

/-- The agent's answer to the turns that it is passed. -/
def agentic (messages : List Turn) : Option Answer :=
  let message := (messages.getLast?.map Turn.content).getD ""
  let seed := hybridRetrieve libs w message
  let prompt : Prompt := ⟨audience, buildUserContext w users userId audience,
    (truthy (some seed.1)).getD "—", language⟩
  let (said, trace) := mind.agent prompt messages (useTool libs w userId audience) {}
  said.map (agentReply libs w mind.parse message seed.2 trace)

/-- The prompt of the linear graph. -/
def linearPrompt (message : String) : Prompt where
  audience := audience
  userContext := buildUserContext w users userId audience
  ragContext := (truthy (some (retrieveContext libs w message libs.ragTopK))).getD
    "No extra policy snippets."
  language := language

/-- The assistant of a call. -/
def brainOf : Brain where
  configured := mind.configured
  ready := mind.ready
  agent := agentic libs w users userId mind audience language
  linear message := (mind.invoke (linearPrompt libs w users userId audience language message)
    message).map (linearReply libs w mind.parse)
  completion message := (mind.completion (linearPrompt libs w users userId audience language message)
    message).map (linearReply libs w mind.parse)
  rules := respondRules libs w userId audience

end Reading

/-! ## What the user may see -/

/-- The rows of the user, and what is public. -/
def visibleTo (userId : ℕ) (w : World) : World where
  profiles := w.profiles.remove fun _ p => p.userId ≠ userId
  orders := w.orders.remove fun _ o => o.userId ≠ userId
  products := w.products
  faqs := w.faqs
  docs := w.docs

section Confinement

variable {libs : Libs} {w : World} {users : Table User} {userId : ℕ} {audience : Audience}

@[simp] theorem shopOf_visibleTo : shopOf (visibleTo userId w) userId = shopOf w userId := by
  unfold shopOf visibleTo Table.first? Table.remove
  rw [List.find?_filter]
  congr 2
  funext r
  by_cases hr : r.2.userId = userId <;> simp [hr]

@[simp] theorem latestOrder_visibleTo :
    latestOrder (visibleTo userId w) userId = latestOrder w userId := by
  unfold latestOrder visibleTo Table.select Table.remove
  rw [List.filter_filter]
  congr 2
  funext r
  by_cases hr : r.2.userId = userId <;> simp [hr]

/-- An order that is asked for by its number is one of the user. -/
@[simp] theorem latestOrderStatus_visibleTo (orderNumber : Option String) :
    latestOrderStatus libs (visibleTo userId w) userId orderNumber =
      latestOrderStatus libs w userId orderNumber := by
  have hfirst : ∀ number, (visibleTo userId w).orders.first? (fun o =>
      libs.texts.equal o.orderNumber number && o.userId = userId) =
        w.orders.first? fun o => libs.texts.equal o.orderNumber number && o.userId = userId := by
    intro number
    unfold visibleTo Table.first? Table.remove
    rw [List.find?_filter]
    congr 1
    funext r
    by_cases hr : r.2.userId = userId <;> simp [hr]
  unfold latestOrderStatus
  simp only [hfirst, latestOrder_visibleTo]

@[simp] theorem buildUserContext_visibleTo :
    buildUserContext (visibleTo userId w) users userId audience =
      buildUserContext w users userId audience := by
  unfold buildUserContext
  simp only [shopOf_visibleTo, latestOrder_visibleTo]
  rfl

/-- No tool reads the rows of another user. -/
@[simp] theorem useTool_visibleTo :
    useTool libs (visibleTo userId w) userId audience = useTool libs w userId audience := by
  funext call
  cases call with
  | agenticRag query => rfl
  | latestOrderStatus orderNumber => simp only [useTool, latestOrderStatus_visibleTo]
  | searchProducts query => rfl
  | shopCredit => simp only [useTool, shopCredit, shopOf_visibleTo]
  | handoverToOwner reason => rfl

@[simp] theorem respondRules_visibleTo (message : String) :
    respondRules libs (visibleTo userId w) userId audience message =
      respondRules libs w userId audience message := by
  unfold respondRules
  simp only [shopOf_visibleTo, latestOrder_visibleTo]
  rfl

variable (mind : Mind) (language : String)

theorem agentic_visibleTo (messages : List Turn) :
    agentic libs (visibleTo userId w) users userId mind audience language messages =
      agentic libs w users userId mind audience language messages := by
  unfold agentic
  simp only [buildUserContext_visibleTo, useTool_visibleTo]
  rfl

theorem linearPrompt_visibleTo (message : String) :
    linearPrompt libs (visibleTo userId w) users userId audience language message =
      linearPrompt libs w users userId audience language message := by
  unfold linearPrompt
  rw [buildUserContext_visibleTo]
  rfl

theorem brainOf_visibleTo :
    brainOf libs (visibleTo userId w) users userId mind audience language =
      brainOf libs w users userId mind audience language := by
  have hagentic : agentic libs (visibleTo userId w) users userId mind audience language =
      agentic libs w users userId mind audience language :=
    funext (agentic_visibleTo mind language)
  have hrules : respondRules libs (visibleTo userId w) userId audience =
      respondRules libs w userId audience := funext respondRules_visibleTo
  unfold brainOf
  simp only [hagentic, linearPrompt_visibleTo, hrules]
  rfl

/-- The assistant of a call depends on the rows of its user and on what is public. -/
theorem brainOf_congr {w' : World} {users' : Table User}
    (hw : visibleTo userId w = visibleTo userId w') (husers : users.get? userId = users'.get? userId) :
    brainOf libs w users userId mind audience language =
      brainOf libs w' users' userId mind audience language := by
  have hcontext : ∀ w, buildUserContext w users userId audience =
      buildUserContext w users' userId audience := by
    intro w
    unfold buildUserContext
    rw [husers]
  have hagentic : ∀ w, agentic libs w users userId mind audience language =
      agentic libs w users' userId mind audience language := by
    intro w
    unfold agentic
    simp only [hcontext]
  have hlinear : ∀ w, linearPrompt libs w users userId audience language =
      linearPrompt libs w users' userId audience language := by
    intro w
    unfold linearPrompt
    simp only [hcontext]
  have husers : ∀ w, brainOf libs w users userId mind audience language =
      brainOf libs w users' userId mind audience language := by
    intro w
    unfold brainOf
    simp only [hagentic, hlinear]
  rw [← brainOf_visibleTo, hw, brainOf_visibleTo, husers]

end Confinement

def plainLibs : Libs where
  texts := ⟨id, id, fun _ _ => true, fun s t => s = t⟩
  isWord := Char.isAlphanum
  bm25 _ _ _ := []

/-! ## Products that are shown -/

section Shown

variable {libs : Libs} {w : World} {r : ℕ × AgentProduct}

/-- The product is on sale. -/
def OnSale (p : AgentProduct) : Prop := p.isActive = true ∧ p.isDraft = false

theorem onSale_of_mem_queryProducts {query : ProductQuery} (h : r ∈ queryProducts libs w query) :
    OnSale r.2 := by
  have hselect := (List.mem_insertionSort _).1 (List.mem_of_mem_take h)
  have hmatches := (List.mem_filter.1 hselect).2
  simp only [Bool.and_eq_true, Bool.not_eq_true', decide_eq_true_eq] at hmatches
  exact ⟨hmatches.1.1.1.1.1.1, hmatches.1.1.1.1.1.2⟩

theorem named_of_mem_productsFromToolText {text : String}
    (h : r ∈ productsFromToolText w text) :
    r.1 ∈ namedIds text ∧ w.products.get? r.1 = some r.2 := by
  obtain ⟨i, hi, hproduct⟩ := List.mem_filterMap.1 h
  obtain ⟨p, hp, rfl⟩ := Option.map_eq_some_iff.1 hproduct
  exact ⟨List.mem_of_mem_take hi, hp⟩

/-- The products that are taken from the messages are those that the last message names that names
any. -/
theorem mem_foldl_named {messages : List Said} {shown : List (ℕ × AgentProduct)}
    (h : r ∈ messages.foldl (fun shown m =>
      let named := productsFromToolText w m.content
      if named ≠ [] then named else shown) shown) :
    r ∈ shown ∨ ∃ m ∈ messages, r ∈ productsFromToolText w m.content := by
  induction messages generalizing shown with
  | nil => exact .inl h
  | cons m messages ih =>
    obtain hshown | ⟨m', hm', hr⟩ := ih h
    · dsimp only at hshown
      split_ifs at hshown with hnamed
      · exact .inr ⟨m, by simp, hshown⟩
      · exact .inl hshown
    · exact .inr ⟨m', List.mem_cons_of_mem m hm', hr⟩

/-- A product that the agent shows is on sale, or a message of its conversation, which may be the
user's own, names its key. -/
theorem onSale_or_named {parse : String → Parsed} {message : String} {seedChunks : ℕ}
    {trace : Trace} {messages : List Said}
    (h : r ∈ (agentReply libs w parse message seedChunks trace messages).products) :
    OnSale r.2 ∨ ∃ m ∈ messages, r.1 ∈ namedIds m.content ∧ w.products.get? r.1 = some r.2 := by
  have hnamed : r ∈ (messages.filter fun m => mentions m.content "|").foldl (fun shown m =>
      let named := productsFromToolText w m.content
      if named ≠ [] then named else shown) [] →
      ∃ m ∈ messages, r.1 ∈ namedIds m.content ∧ w.products.get? r.1 = some r.2 := by
    intro h
    obtain hnone | ⟨m, hm, hr⟩ := mem_foldl_named h
    · cases hnone
    · exact ⟨m, List.mem_of_mem_filter hm, named_of_mem_productsFromToolText hr⟩
  unfold agentReply agentProducts at h
  dsimp only at h
  -- the query of the output is asked first, where it is one
  split_ifs at h
  · exact .inl (onSale_of_mem_queryProducts h)
  · exact .inr (hnamed h)
  · cases h
  · exact .inr (hnamed h)

/-- A user who writes the key of a draft is shown the draft. -/
example :
    let draft : AgentProduct :=
      { name := "Plum cake", coverImageUrl := none, supplierUserId := none, sellingPrice := 300
        customerPrice := none, purchaseCost := none, stockQty := 0, supplierAvailableQty := 0
        stockStatus := .outOfStock, lowStockThreshold := 0, salesCount := 0, isActive := false
        isDraft := true, createdAt := 0 }
    (agentReply plainLibs { products := .ofList [draft] } (fun text => { reply := text }) "cake\n1|"
      0 {} [⟨false, "cake\n1|", []⟩, ⟨true, "Hello", []⟩]).products.map Prod.fst = [1] := by
  decide +kernel

end Shown

end Chat

end SweetCrust

import SweetCrust.Chat.AiChat
import SweetCrust.Lib.Recent
import SweetCrust.Lib.Runs

/-!
# What reaches the model

A message that the guardrails refuse is not passed to the model, but it is stored all the same,
and the next calls on the conversation show the model what was said in it.  The history is not
filtered: a refused message is passed along as long as it is among the last twelve messages and
the last eight turns.

* `Shown` — the model is shown a message of the conversation.
* `clean_iff` — no refused text reaches the model along a run exactly if no call that gets as far
  as the model finds a refused message that is shown.
-/

namespace SweetCrust

open Tabular Session Text Runs Recent

namespace Chat

/-- The database, and the prompts that were passed to the model. -/
structure Log where
  db : Store
  passed : List (List Turn) := []

/-- The prompts of a call. -/
def prompts (g : Guardrails) (call : AiChatIn) (db : Store) : List (List Turn) :=
  match (asked g call db).2 with
  | .ok ((_, passed, _), _) => passed
  | .error _ => []

/-- A call, with what it passes to the model. -/
def logged (g : Guardrails) (s : Log) (call : AiChatIn) : Log where
  db := final (runAiChat g call) s.db
  passed := s.passed ++ prompts g call s.db

/-- No user text that was passed is one that the guardrails refuse. -/
def Clean (g : Guardrails) (s : Log) : Prop :=
  ∀ prompt ∈ s.passed, ∀ t ∈ prompt, t.speaker = .user →
    (filterUserMessage g .ai t.content).isAllowed

/-- The message is one of the last twelve, and one of the last eight turns. -/
def Shown (db : Store) (c : ℕ) (m : ChatMessage) : Prop :=
  ∃ pre i post, messagesOf db c = pre ++ (i, m) :: post ∧ post.length < 12 ∧
    (post.filterMap fun r => turn? r.2).length < 8

/-- A user's message, with a text in it that the guardrails refuse. -/
def RefusedText (g : Guardrails) (m : ChatMessage) : Prop :=
  saidByUser m.senderRole ∧ stripped (m.content.getD "") ≠ "" ∧
    (g.refusesAi (stripped (m.content.getD ""))).isSome

/-- The call does not get as far as the agent's model, or is shown no refused message. -/
def ShowsNoRefused (g : Guardrails) (s : Log) (call : AiChatIn) : Prop :=
  call.rate = .ok () → (filterUserMessage g .ai call.message).isAllowed → call.brain.configured →
    call.brain.ready → ∀ c, On s.db call c → ∀ m, Shown s.db c m → ¬ RefusedText g m

/-! ## The guardrails -/

section Gates

variable {g : Guardrails} {mode : Mode} {text clean : String}

theorem stripped_stripped (text : String) : stripped (stripped text) = stripped text := by
  simp [stripped, strip_strip]

/-- A text that is allowed is stripped, and allowed again. -/
theorem allowed_again (h : filterUserMessage g mode text = .allowed clean) :
    filterUserMessage g mode clean = .allowed clean := by
  have hclean : clean = stripped text := by
    unfold filterUserMessage at h
    split_ifs at h
    split at h <;> cases h
    rfl
  rw [hclean] at h ⊢
  rw [← h]
  unfold filterUserMessage
  rw [stripped_stripped]

/-- What is shown of a user's message is allowed exactly if its text is not refused. -/
theorem isAllowed_stripped_iff (hne : stripped text ≠ "") :
    (filterUserMessage g .ai (stripped text)).isAllowed ↔ ¬ (g.refusesAi (stripped text)).isSome := by
  unfold filterUserMessage
  rw [stripped_stripped, if_neg hne]
  cases hr : g.refusesAi (stripped text) <;> simp [hr, Gate.isAllowed]

end Gates

/-! ## What is passed -/

section Passed

variable {g : Guardrails} {brain : Brain} {message text : String} {history : List Turn} {t : Turn}

theorem content_ne_of_turn? {m : ChatMessage} (h : turn? m = some t) : t.content ≠ "" := by
  unfold turn? at h
  dsimp only at h
  split_ifs at h with hne
  all_goals
    cases h
    exact hne

/-- A user's turn is what a user's message is shown as. -/
theorem turn?_user_iff {m : ChatMessage} {content : String} :
    turn? m = some ⟨.user, content⟩ ↔
      saidByUser m.senderRole ∧ content = stripped (m.content.getD "") ∧ content ≠ "" := by
  unfold turn?
  dsimp only
  constructor
  · intro h
    split_ifs at h with hne huser
    · cases h
      exact ⟨huser, rfl, hne⟩
    · cases h
  · rintro ⟨huser, rfl, hne⟩
    rw [if_neg hne, if_pos huser]

/-- The linear graph passes the message. -/
theorem mem_runLinear (hgate : filterUserMessage g .ai text = .allowed text) :
    (∃ prompt ∈ (runLinear g brain text).1, t ∈ prompt) ↔ t = ⟨.user, text⟩ := by
  unfold runLinear
  rw [hgate]
  cases hlinear : brain.linear text <;> simp [hlinear]

/-- The agent passes the history as well. -/
theorem mem_runChatbotGraph (hgate : filterUserMessage g .ai text = .allowed text) :
    (∃ prompt ∈ (runChatbotGraph g brain text history).1, t ∈ prompt) ↔
      t = ⟨.user, text⟩ ∨ brain.ready = true ∧ t ∈ historyMessages history := by
  unfold runChatbotGraph runAgenticChatbot
  rw [hgate]
  by_cases hready : brain.ready = true
  · simp only [hready, if_true, true_and]
    cases brain.agent (historyMessages history ++ [⟨.user, text⟩]) with
    | some a => simp [or_comm]
    | none =>
      simp only [Option.map_none, List.singleton_append, List.exists_mem_cons_iff,
        mem_runLinear hgate, List.mem_append, List.mem_singleton]
      tauto
  · simp only [hready, Bool.false_eq_true, if_false, List.nil_append, false_and, or_false]
    exact mem_runLinear hgate

/-- A message that is refused, or that no model is there for, is passed to none. -/
theorem mem_respond : (∃ prompt ∈ (respond g brain message history).1, t ∈ prompt) ↔
    ∃ text, filterUserMessage g .ai message = .allowed text ∧ brain.configured = true ∧
      (t = ⟨.user, text⟩ ∨ brain.ready = true ∧ t ∈ historyMessages history) := by
  unfold respond
  cases hgate : filterUserMessage g .ai message with
  | refused reply reason => simp
  | allowed text =>
    by_cases hconf : brain.configured = true
    · simp [hconf, mem_runChatbotGraph (allowed_again hgate)]
    · simp [hconf]

/-- What the model is shown of a conversation. -/
theorem mem_historyMessages {db : Store} {c : ℕ} :
    t ∈ historyMessages (llmHistory db c 12) ↔ ∃ m, Shown db c m ∧ turn? m = some t := by
  have hkept : ((llmHistory db c 12).filter fun t => t.content ≠ "") = llmHistory db c 12 := by
    refine List.filter_eq_self.2 fun t ht => ?_
    obtain ⟨r, -, hr⟩ := List.mem_filterMap.1 ht
    exact decide_eq_true (content_ne_of_turn? hr)
  unfold historyMessages
  rw [hkept, llmHistory, mem_rtake_filterMap]
  constructor
  · rintro ⟨pre, ⟨i, m⟩, post, hsplit, ht, hlen⟩
    obtain ⟨⟨pre, hrows⟩, hlast⟩ := split_rtake.1 ⟨pre, hsplit⟩
    exact ⟨m, ⟨pre, i, post, hrows, hlast, hlen⟩, ht⟩
  · rintro ⟨m, ⟨pre, i, post, hrows, hlast, hlen⟩, ht⟩
    obtain ⟨pre, hsplit⟩ := split_rtake.2 ⟨⟨pre, hrows⟩, hlast⟩
    exact ⟨pre, (i, m), post, hsplit, ht, hlen⟩

end Passed

/-! ## One call -/

section Calls

variable {g : Guardrails} {s : Log} {call : AiChatIn}

/-- The prompts of a call are those of the answer on its conversation. -/
theorem prompts_or (g : Guardrails) (db : Store) (call : AiChatIn) :
    (∃ c, call.rate = .ok () ∧ (∀ c', On db call c' ↔ c' = c) ∧ prompts g call db =
        (respond g call.brain call.message (llmHistory db c 12)).1) ∨
      (call.rate = .ok () → ¬ ∃ c, On db call c) ∧ prompts g call db = [] := by
  unfold prompts asked
  cases hrate : call.rate with
  | error e => exact Or.inr ⟨nofun, rfl⟩
  | ok u =>
    rcases conversationFor_or g call db with ⟨c, t, hon, hopens, hreturns⟩ | ⟨hnone, hraises⟩
    · left
      have hhistory : llmHistory t c 12 = llmHistory db c 12 := by
        rw [llmHistory, messagesOf, hopens.messages, llmHistory, messagesOf]
      refine ⟨c, rfl, hon, ?_⟩
      rw [← hhistory, ofExcept_ok_bind, hreturns.outcome_bind]
      rfl
    · right
      refine ⟨fun _ => hnone, ?_⟩
      obtain ⟨e, he⟩ := hraises.outcome
      rw [ofExcept_ok_bind, bind_run_of_error he]

/-- A call passes no refused text exactly if it is shown none. -/
theorem clean_logged_iff (h : Clean g s) : Clean g (logged g s call) ↔ ShowsNoRefused g s call := by
  have hsplit : Clean g (logged g s call) ↔ ∀ t, (∃ prompt ∈ prompts g call s.db, t ∈ prompt) →
      t.speaker = .user → (filterUserMessage g .ai t.content).isAllowed := by
    constructor
    · rintro hall t ⟨prompt, hprompt, ht⟩ huser
      exact hall prompt (List.mem_append_right _ hprompt) t ht huser
    · intro hall prompt hprompt t ht huser
      rcases List.mem_append.1 hprompt with hold | hnew
      · exact h prompt hold t ht huser
      · exact hall t ⟨prompt, hnew, ht⟩ huser
  rw [hsplit]
  rcases prompts_or g s.db call with ⟨c, hrate, hon, heq⟩ | ⟨hnone, heq⟩
  · rw [heq]
    simp only [mem_respond, mem_historyMessages, ShowsNoRefused, hrate, hon, forall_const,
      forall_eq]
    constructor
    · rintro hall hallowed hconf hready m hshown ⟨huser, hne, hrefused⟩
      cases hgate : filterUserMessage g .ai call.message with
      | refused reply reason =>
        rw [hgate] at hallowed
        cases hallowed
      | allowed text =>
        have hturn : turn? m = some ⟨.user, stripped (m.content.getD "")⟩ :=
          turn?_user_iff.2 ⟨huser, rfl, hne⟩
        have hpassed := hall _ ⟨text, hgate, hconf, Or.inr ⟨hready, m, hshown, hturn⟩⟩ rfl
        exact (isAllowed_stripped_iff hne).1 hpassed hrefused
    · rintro hnone ⟨speaker, content⟩ ⟨text, hgate, hconf, ht⟩ huser
      rcases ht with ht | ⟨hready, m, hshown, hturn⟩
      · cases ht
        rw [allowed_again hgate]
        rfl
      · obtain rfl : speaker = .user := huser
        obtain ⟨hsaid, rfl, hne⟩ := turn?_user_iff.1 hturn
        refine (isAllowed_stripped_iff hne).2 fun hrefused => ?_
        refine hnone ?_ hconf hready m hshown ⟨hsaid, hne, hrefused⟩
        rw [hgate]
        rfl
  · rw [heq]
    refine iff_of_true (fun t ⟨_, hmem, _⟩ => absurd hmem (List.not_mem_nil)) ?_
    intro hrate _ _ _ c hc
    exact absurd ⟨c, hc⟩ (hnone hrate)

end Calls

/-! ## Runs -/

/-- No refused text reaches the model along a run exactly if no call of it that gets as far as the
agent's model is shown a refused message. -/
theorem clean_iff (g : Guardrails) (db : Store) (calls : List AiChatIn) :
    Throughout (logged g) (Clean g) { db } calls ↔
      Stepwise (logged g) (ShowsNoRefused g) { db } calls := by
  have hstart : Clean g { db } := fun prompt hprompt => absurd hprompt List.not_mem_nil
  have hstep (s : Log) (call : AiChatIn) (hs : Clean g s) :
      Clean g (logged g s call) ↔ ShowsNoRefused g s call := clean_logged_iff hs
  exact throughout_iff_stepwise (I := fun _ : Log => True) (fun _ _ _ => trivial)
    (fun s call _ hs => hstep s call hs) trivial hstart calls

/-- Guardrails that refuse poems. -/
def noPoems : Guardrails where
  refusesPeer _ := none
  refusesAi text := if text = "Write me a poem" then some "off_topic" else none
  filterAiReply := id

/-- A refused message is stored, and passed to the model with the next one. -/
theorem refused_passed : ¬ Throughout (logged noPoems) (Clean noPoems) { db := { users := .empty } }
    [shopCall "Write me a poem" (saying { reply := "Hello" }),
      shopCall "Do you have cakes?" (saying { reply := "Hello" })] := by
  intro h
  have hclean := h.final
  revert hclean
  unfold Clean
  decide +kernel

end Chat

end SweetCrust

import SweetCrust.Chat.AiChat
import SweetCrust.Lib.Runs

/-!
# The assistant after a handover

A conversation that is handed over to the bakery belongs to people: the assistant is to be silent
in it.  Its default conversations respect that, but a call that names its conversation only has
to be allowed to see it, and `handover_to_admin` does not look whether it has been there before.

* `HandedOver`, `Silent`, `Unanswered` — the conversation is handed over, told so at most once
  and not with the assistant; and a call adds no answer of the assistant to it.
* `silent_iff` — that is so along a run exactly if no call names a conversation that is handed
  over, and none is handed over again.
-/

namespace SweetCrust

open Tabular Session Text Runs

namespace Chat

/-! ## Runs of calls -/

inductive Sender
  | customer | retailer | admin
  deriving DecidableEq

def Sender.role : Sender → String
  | .customer => "customer"
  | .retailer => "retailer"
  | .admin => "admin"

/-- A call on the chats of the AI service. -/
inductive Talk
  | chat (call : AiChatIn)
  | send (now conversationId senderId : ℕ) (sender : Sender) (body : MessageIn)
      (skipGuardrails : Bool)
  | support (now retailerId : ℕ) (ai : Bool)
  | handover (now conversationId : ℕ)

/-- The tables after a call. -/
def talked (g : Guardrails) (db : Store) : Talk → Store
  | .chat call => final (runAiChat g call) db
  | .send now c senderId sender body skip =>
    final (sendMessage g now c (some senderId) sender.role body skip) db
  | .support now retailerId ai => final (getOrCreateRetailerSupport g now retailerId ai) db
  | .handover now c => final (handoverToAdmin g now c) db

/-- Whether a conversation is with the assistant, and whether it is handed over. -/
def flags (c : ℕ) (db : Store) : Option (Bool × Bool) :=
  (db.conversations.get? c).map fun conv => (conv.isAi, conv.aiHandedOver)

/-- How many messages of the conversation satisfy `p`. -/
def tally (p : ChatMessage → Bool) (c : ℕ) (db : Store) : ℕ :=
  (db.messages.select fun m => m.conversationId = c ∧ p m).length

/-- The messages of the assistant. -/
def answers : ℕ → Store → ℕ := tally fun m => m.senderRole = "ai"

/-- The messages that tell of a handover. -/
def notes : ℕ → Store → ℕ :=
  tally fun m => m.senderRole = "system" ∧ m.content = some handoverText

def HandedOver (c : ℕ) (db : Store) : Prop := ∃ isAi, flags c db = some (isAi, true)

/-- A conversation that is handed over is not with the assistant, and was told so at most once. -/
def Silent (c : ℕ) (db : Store) : Prop :=
  ∀ isAi, flags c db = some (isAi, true) → isAi = false ∧ notes c db ≤ 1

/-- The call adds no answer to a conversation that is handed over. -/
def Unanswered (g : Guardrails) (c : ℕ) (db : Store) (talk : Talk) : Prop :=
  HandedOver c db → answers c (talked g db talk) = answers c db

/-- A silent conversation that was not told of a handover before there is one. -/
def Untold (c : ℕ) (db : Store) : Prop :=
  Silent c db ∧ (¬ HandedOver c db → notes c db = 0)

/-- The call does not name a conversation that is handed over, and does not hand one over that
was told of a handover before. -/
def Respects (c : ℕ) (db : Store) : Talk → Prop
  | .chat call => call.rate = .ok () → call.conversationId = some c → c ≠ 0 →
      ∀ conv, Allowed db c call.userId call.user conv → ¬ HandedOver c db
  | .handover _ c' => c' = c → HandedOver c db → notes c db = 0
  | _ => True

/-! ## What a call changes -/

section Changes

variable {g : Guardrails} {db db' t : Store} {c c' : ℕ} {role : String}

theorem tally_posted {p : ChatMessage → Bool} {change : Conversation → Conversation}
    {m : ChatMessage} {n : Option Notice} (hm : m.conversationId = c') :
    tally p c (posted c' change m n db) = tally p c db + if c' = c ∧ p m then 1 else 0 := by
  rw [tally, posted, Table.select_insert, List.length_append, hm, tally]
  by_cases h : c' = c <;> by_cases hp : p m <;> simp [h, hp]

theorem tally_sent (p : ChatMessage → Bool) (users : String → Bool) (now : ℕ) (conv : Conversation)
    (senderId : Option ℕ) (body : MessageIn) :
    tally p c (sent users now c' conv senderId role body db) =
      tally p c db +
        if c' = c ∧ p (messageOf users db c' conv senderId role body) then 1 else 0 :=
  tally_posted rfl

theorem flags_posted {change : Conversation → Conversation} {m : ChatMessage} {n : Option Notice}
    (hchange : ∀ conv, (change conv).isAi = conv.isAi ∧
      (change conv).aiHandedOver = conv.aiHandedOver) :
    flags c (posted c' change m n db) = flags c db := by
  unfold flags posted
  rw [Table.get?_modify]
  split_ifs with h
  · subst h
    cases db.conversations.get? c with
    | none => rfl
    | some conv => simp [hchange conv]
  · rfl

theorem Posts.flags (h : Posts c' role db db') : flags c db' = flags c db := by
  obtain ⟨change, m, n, rfl, -, -, hchange⟩ := h
  exact flags_posted hchange

theorem Posts.answers (h : Posts c' role db db') :
    answers c db' = answers c db + if c' = c ∧ role = "ai" then 1 else 0 := by
  obtain ⟨change, m, n, rfl, hm, rfl, -⟩ := h
  rw [Chat.answers, tally_posted hm]
  simp

theorem Posts.notes (h : Posts c' role db db') (hrole : role ≠ "system") :
    notes c db' = notes c db := by
  obtain ⟨change, m, n, rfl, hm, rfl, -⟩ := h
  rw [Chat.notes, tally_posted hm]
  simp [hrole]

theorem tally_congr (p : ChatMessage → Bool) (h : t.messages = db.messages) :
    tally p c t = tally p c db := by
  rw [tally, h, tally]

theorem tally_handing (p : ChatMessage → Bool) : tally p c (handing c' db) = tally p c db :=
  tally_congr p rfl

/-- A conversation that is there is handed over, and told so. -/
theorem flags_handover (g : Guardrails) (db : Store) (c c' now : ℕ) :
    flags c (final (handoverToAdmin g now c') db) =
    if c' = c ∧ (flags c db).isSome then some (false, true) else flags c db := by
  rw [final_handoverToAdmin]
  unfold flags
  by_cases hc : c' = c
  · subst hc
    cases hconv : db.conversations.get? c' with
    | none => simp [hconv]
    | some conv => simp [sent, posted, handing, hconv, counted, fromUser, fromBakery, handedOver,
        withUnreadCustomer, touched]
  · cases hconv : db.conversations.get? c' with
    | none => simp [hc]
    | some conv =>
      simp [hc, sent, posted, handing, Table.get?_modify_of_ne _ _ (Ne.symm hc)]

theorem answers_handover (g : Guardrails) (db : Store) (c c' now : ℕ) :
    answers c (final (handoverToAdmin g now c') db) = answers c db := by
  rw [final_handoverToAdmin]
  cases hconv : db.conversations.get? c' with
  | none => rfl
  | some conv =>
    dsimp only
    rw [answers, tally_sent, tally_handing]
    simp [messageOf]

theorem notes_handover (g : Guardrails) (db : Store) (c c' now : ℕ) :
    notes c (final (handoverToAdmin g now c') db) =
    notes c db + if c' = c ∧ (flags c db).isSome then 1 else 0 := by
  rw [final_handoverToAdmin]
  cases hconv : db.conversations.get? c' with
  | none =>
    have hnone : ¬ (c' = c ∧ (flags c db).isSome) := by
      rintro ⟨rfl, hsome⟩
      simp [flags, hconv] at hsome
    rw [if_neg hnone]
    rfl
  | some conv =>
    have hsome : c' = c → (flags c db).isSome := by
      rintro rfl
      simp [flags, hconv]
    dsimp only
    rw [notes, tally_sent, tally_handing]
    by_cases hc : c' = c
    · simp [messageOf, hc, hsome hc]
    · simp [hc]

/-- A conversation that is opened is not handed over. -/
theorem flags_withConversation (conv : Conversation) (db : Store) (c : ℕ) :
    flags c (withConversation conv db) = flags c db ∨
      flags c db = none ∧ flags c (withConversation conv db) =
        some (conv.isAi, conv.aiHandedOver) := by
  unfold flags withConversation
  rw [Table.get?_insert]
  split_ifs with hc
  · right
    rw [hc, Table.get?_next]
    exact ⟨rfl, rfl⟩
  · exact Or.inl rfl

theorem final_support (g : Guardrails) (now retailerId : ℕ) (ai : Bool) (db : Store) :
    final (getOrCreateRetailerSupport g now retailerId ai) db = db ∨
      ∃ category, final (getOrCreateRetailerSupport g now retailerId ai) db =
        withConversation (newConversation now retailerId category ai) db := by
  unfold getOrCreateRetailerSupport
  rw [final_get_bind]
  split
  · exact Or.inl (returns_pure _ _).final
  · exact Or.inr ⟨_, (returns_createConversation g ..).final⟩

/-- A conversation that is found or opened is as it was, or is with the assistant. -/
theorem flags_opens {call : AiChatIn} (h : Opens db call c' t) :
    flags c t = flags c db ∨ flags c db = none ∧ flags c t = some (true, false) := by
  cases h with
  | named hid hallowed => exact Or.inl rfl
  | support hid hconv hsilent => exact Or.inl rfl
  | new category hid => exact flags_withConversation _ db c

theorem Opens.tally {call : AiChatIn} (h : Opens db call c' t) (p : ChatMessage → Bool) :
    tally p c t = tally p c db := tally_congr p h.messages

end Changes

/-! ## One call -/

section Calls

variable {g : Guardrails} {db db' : Store} {c : ℕ}

/-- What is said of a conversation depends on its flags and its notes. -/
theorem Untold.of_same (h : Untold c db) (hflags : flags c db' = flags c db)
    (hnotes : notes c db' = notes c db) : Untold c db' := by
  unfold Untold Silent HandedOver at *
  rw [hflags, hnotes]
  exact h

theorem untold_of_new {isAi : Bool} (hflags : flags c db' = some (isAi, false))
    (hnotes : notes c db' = 0) :
    Untold c db' := by
  unfold Untold Silent HandedOver
  rw [hflags]
  exact ⟨fun _ h => (by cases h), fun _ => hnotes⟩

/-- A handover of a conversation that was not told of one. -/
theorem untold_handover (h : Untold c db) (now c' : ℕ)
    (hnew : c' = c → notes c db = 0) : Untold c (final (handoverToAdmin g now c') db) := by
  by_cases hc : c' = c ∧ (flags c db).isSome
  · have hflags := flags_handover g db c c' now
    have hnotes := notes_handover g db c c' now
    rw [if_pos hc] at hflags hnotes
    unfold Untold Silent HandedOver
    rw [hflags, hnotes, hnew hc.1]
    refine ⟨fun isAi heq => ?_, fun hnot => absurd ⟨_, rfl⟩ hnot⟩
    cases heq
    exact ⟨rfl, le_refl 1⟩
  · refine h.of_same ?_ ?_
    · rw [flags_handover, if_neg hc]
    · rw [notes_handover, if_neg hc, add_zero]

/-- What a call on the conversation finds is not handed over, if no call names one that is. -/
theorem not_handedOver_of_opens {call : AiChatIn} {t : Store} (h : Untold c db)
    (hopens : Opens db call c t)
    (hnamed : call.conversationId = some c → c ≠ 0 →
      ∀ conv, Allowed db c call.userId call.user conv → ¬ HandedOver c db) :
    ¬ HandedOver c db := by
  rintro ⟨isAi, hflags⟩
  cases hopens with
  | named hid hallowed =>
    obtain ⟨hid, hne⟩ := Option.filter_eq_some_iff.1 hid
    exact hnamed hid (of_decide_eq_true hne) _ hallowed ⟨isAi, hflags⟩
  | support hid hconv hsilent =>
    -- A shop's support chat that is handed over is one of the assistant's no more.
    have hfalse := (h.1 isAi hflags).1
    rw [flags, hconv, Option.map_some, Option.some.injEq, Prod.mk.injEq] at hflags
    rcases hsilent with hsilent | hsilent
    · rw [hflags.1, hfalse] at hsilent
      cases hsilent
    · rw [hflags.2] at hsilent
      cases hsilent
  | new category hid =>
    rw [flags, Table.get?_next] at hflags
    cases hflags

/-- A call that respects the handover of a conversation. -/
theorem chat_of_respects (call : AiChatIn) (h : Untold c db) (hok : Respects c db (.chat call)) :
    Untold c (talked g db (.chat call)) ∧ Unanswered g c db (.chat call) := by
  simp only [Unanswered, talked]
  rcases final_runAiChat g call db with ⟨c', t, t', t'', hrate, -, hopens, hmessage, hanswer, hend⟩ |
    ⟨-, hsame⟩
  · have hrole : call.audience.role ≠ "system" := by
      cases call.audience <;> decide
    have hnotes : notes c t'' = notes c db := by
      rw [hanswer.notes (by decide), hmessage.notes hrole]
      exact hopens.tally _
    have hflags : flags c t'' = flags c t := by
      rw [hanswer.flags, hmessage.flags]
    have hnot : c' = c → ¬ HandedOver c db := by
      rintro rfl
      exact not_handedOver_of_opens h hopens (hok hrate)
    have hposted : Untold c t'' := by
      rcases flags_opens hopens with heq | ⟨hnone, heq⟩
      · exact h.of_same (hflags.trans heq) hnotes
      · refine untold_of_new (hflags.trans heq) (hnotes.trans (h.2 ?_))
        rintro ⟨isAi, hsome⟩
        rw [hnone] at hsome
        cases hsome
    have hanswers : HandedOver c db → answers c t'' = answers c db := by
      intro hover
      have hne : c' ≠ c := fun hc => hnot hc hover
      rw [hanswer.answers, hmessage.answers, if_neg (by simp [hne]), if_neg (by simp [hne])]
      exact hopens.tally _
    rcases hend with heq | heq
    · rw [heq]
      exact ⟨hposted, hanswers⟩
    · rw [heq, answers_handover]
      exact ⟨untold_handover hposted _ _ fun hc => hnotes.trans (h.2 (hnot hc)), hanswers⟩
  · rw [hsame]
    exact ⟨h, fun _ => rfl⟩

/-- A call that names a conversation that is handed over has the assistant answer in it. -/
theorem respects_of_unanswered (call : AiChatIn) (hq : Unanswered g c db (.chat call)) :
    Respects c db (.chat call) := by
  intro hrate hid hne conv hallowed hover
  have hnamed : (call.conversationId.filter fun c => c ≠ 0) = some c := by
    rw [hid]
    simp [hne]
  have hon : On db call c := by
    unfold On
    rw [hnamed]
    exact ⟨rfl, conv, hallowed⟩
  have hsame := hq hover
  simp only [talked] at hsame
  rcases final_runAiChat g call db with
    ⟨c', t, t', t'', -, honly, hopens, hmessage, hanswer, hend⟩ | ⟨hnone, -⟩
  · obtain rfl := (honly c).1 hon
    have hmore : answers c t'' = answers c t' + 1 := by
      rw [hanswer.answers]
      simp
    have hbefore : answers c db ≤ answers c t' := by
      rw [hmessage.answers]
      exact (hopens.tally _).ge.trans (Nat.le_add_right ..)
    have hfinal : answers c (final (runAiChat g call) db) = answers c t'' := by
      rcases hend with heq | heq
      · rw [heq]
      · rw [heq, answers_handover]
    omega
  · exact hnone hrate ⟨c, hon⟩

/-- A call that respects the handover keeps the conversation silent, and does not answer in it. -/
theorem untold_of_respects (h : Untold c db) (talk : Talk) (hok : Respects c db talk) :
    Untold c (talked g db talk) ∧ Unanswered g c db talk := by
  cases talk with
  | chat call => exact chat_of_respects call h hok
  | send now c' senderId sender body skip =>
    have hroles : sender.role ≠ "system" ∧ sender.role ≠ "ai" := by
      cases sender <;> decide
    simp only [Unanswered, talked]
    rcases final_sendMessage g skip with hsame | ⟨conv, content, -, hsent⟩
    · rw [hsame]
      exact ⟨h, fun _ => rfl⟩
    · have hposts : Posts c' sender.role db
          (final (sendMessage g now c' (some senderId) sender.role body skip) db) := by
        rw [hsent]
        exact posts_sent ..
      refine ⟨h.of_same hposts.flags (hposts.notes hroles.1), fun _ => ?_⟩
      rw [hposts.answers]
      simp [hroles.2]
  | support now retailerId ai =>
    simp only [Unanswered, talked]
    rcases final_support g now retailerId ai db with hsame | ⟨category, hnew⟩
    · rw [hsame]
      exact ⟨h, fun _ => rfl⟩
    · rw [hnew]
      refine ⟨?_, fun _ => tally_congr _ rfl⟩
      have hnotes := tally_congr (c := c) (fun m => m.senderRole = "system" ∧
        m.content = some handoverText) (show (withConversation (newConversation now retailerId
          category ai) db).messages = db.messages from rfl)
      rcases flags_withConversation (newConversation now retailerId category ai) db c with
        heq | ⟨hnone, heq⟩
      · exact h.of_same heq hnotes
      · refine untold_of_new heq (hnotes.trans (h.2 ?_))
        rintro ⟨isAi, hsome⟩
        rw [hnone] at hsome
        cases hsome
  | handover now c' =>
    simp only [Unanswered, talked, answers_handover]
    refine ⟨untold_handover h now c' fun hc => ?_, fun _ => trivial⟩
    by_cases hover : HandedOver c db
    · exact hok hc hover
    · exact h.2 hover

/-- A call after which the conversation is silent, and has no new answer, respects the handover. -/
theorem respects_of_silent (talk : Talk) (hp : Silent c (talked g db talk))
    (hq : Unanswered g c db talk) : Respects c db talk := by
  cases talk with
  | chat call => exact respects_of_unanswered call hq
  | send now c' senderId sender body skip => trivial
  | support now retailerId ai => trivial
  | handover now c' =>
    rintro hc ⟨isAi, hflags⟩
    have hthere : c' = c ∧ (flags c db).isSome := ⟨hc, by rw [hflags]; rfl⟩
    have hflags' := flags_handover g db c c' now
    have hnotes' := notes_handover g db c c' now
    rw [if_pos hthere] at hflags' hnotes'
    have hone := (hp false hflags').2
    rw [talked, hnotes'] at hone
    omega

end Calls

/-! ## Runs -/

/-- Along a run a conversation is silent once it is handed over, exactly if each call respects
that it is. -/
theorem silent_iff (g : Guardrails) {c : ℕ} {db : Store} (h : Untold c db) (talks : List Talk) :
    Throughout (talked g) (Silent c) db talks ∧ Stepwise (talked g) (Unanswered g c) db talks ↔
      Stepwise (talked g) (Respects c) db talks := by
  refine throughout_and_stepwise_iff_of_inductive (fun _ hs => hs.1) ?_ ?_ h talks
  · intro s talk hs hok
    exact untold_of_respects hs talk hok
  · intro s talk _ hp hq
    exact respects_of_silent talk hp hq

/-- An answer that asks for a person. -/
def toOwner : Answer := { reply := "One moment", actions := ["handover_human"] }

/-- The shop asks for a person, the bakery answers, and the shop goes on with the assistant, in a
conversation of its own. -/
theorem silent_answered :
    Throughout (talked lenient) (Silent 1) { users := .empty }
        [.chat (shopCall "Talk to owner" (saying toOwner)),
          .send 0 1 1 .admin { content := some "Hello" } true,
          .chat (shopCall "Do you have cakes?" (saying { reply := "Yes" }))] ∧
      Stepwise (talked lenient) (Unanswered lenient 1) { users := .empty }
        [.chat (shopCall "Talk to owner" (saying toOwner)),
          .send 0 1 1 .admin { content := some "Hello" } true,
          .chat (shopCall "Do you have cakes?" (saying { reply := "Yes" }))] := by
  refine (silent_iff lenient ⟨?_, fun _ => by decide⟩ _).2 ?_
  · rintro isAi ⟨⟩
  · simp only [stepwise_cons, stepwise_nil, Respects, and_true, true_and]
    exact ⟨nofun, nofun⟩

/-- The shop names the conversation that is handed over. -/
def namedAgain : List Talk :=
  [.chat (shopCall "Talk to owner" (saying toOwner)),
    .chat (shopCall "Do you have cakes?" (saying { reply := "Yes" }) (some 1))]

/-- The assistant answers in it. -/
theorem answered_named :
    ¬ (Throughout (talked lenient) (Silent 1) { users := .empty } namedAgain ∧
        Stepwise (talked lenient) (Unanswered lenient 1) { users := .empty } namedAgain) := by
  rintro ⟨-, h⟩
  have hlast := h [.chat (shopCall "Talk to owner" (saying toOwner))] _ (List.prefix_refl _)
    ⟨false, by decide +kernel⟩
  revert hlast
  decide +kernel

end Chat

end SweetCrust

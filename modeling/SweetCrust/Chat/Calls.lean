import SweetCrust.Lib.Guard
import SweetCrust.Lib.Runs
import SweetCrust.Lib.Text
import SweetCrust.Lib.Decimal
import SweetCrust.Data.Rows

/-!
# Phone calls: `calls.py`

The record of a call is written by the provider, which reports what has become of the call and
sends on what was said, and by those who take part.  What is read out to the caller, and what the
provider is asked to do next, are not modelled; what the assistant answers is a parameter.

* `updateCallStatus`, `voiceTwimlGather`, `updateCall` — the writers.
* `Finished` — once a call is over, what has become of it stays, and it has ended exactly if it is
  over.
* `finished_iff` — so it is for a run exactly if no writer comes to a call that is over, unless it
  says the same again.
-/

namespace SweetCrust

open Tabular Guard Runs Text Decimal

namespace Calls

inductive CallStatus
  | ringing | ongoing | missed | completed | rejected | failed
  deriving DecidableEq

/-- `CallStatus(text)`. -/
def CallStatus.ofValue? (text : String) : Option CallStatus :=
  match text with
  | "ringing" => some .ringing
  | "ongoing" => some .ongoing
  | "missed" => some .missed
  | "completed" => some .completed
  | "rejected" => some .rejected
  | "failed" => some .failed
  | _ => none

/-- What was said, when, and by whom. -/
structure Utterance where
  role : String
  text : String
  saidAt : ℤ

/-- `CallRecord`.  Times are in microseconds; the columns of the database keep whole seconds of
them, so a time that is read back is a multiple of a million. -/
structure CallRecord where
  callerId : Option ℕ
  calleeId : Option ℕ
  status : CallStatus
  providerCallSid : Option String
  transcript : List Utterance
  durationSeconds : ℤ
  notes : Option String
  startedAt : Option ℤ
  endedAt : Option ℤ

/-- The call is over. -/
def IsFinal (s : CallStatus) : Prop :=
  s ∈ [CallStatus.completed, .failed, .missed, .rejected]

instance : DecidablePred IsFinal := fun _ => inferInstanceAs (Decidable (_ ∈ _))

/-! ## What the provider reports -/

/-- What the provider's word for a status means. -/
def statusOf (text : String) : Option CallStatus :=
  match String.ofList (lower text.toList) with
  | "queued" => some .ringing
  | "initiated" => some .ringing
  | "ringing" => some .ringing
  | "in-progress" => some .ongoing
  | "answered" => some .ongoing
  | "completed" => some .completed
  | "busy" => some .failed
  | "failed" => some .failed
  | "no-answer" => some .missed
  | "canceled" => some .rejected
  | _ => none

/-- The record of a call, by its key or else by the provider's. -/
def find (calls : Table CallRecord) (callId : ℕ) (callSid : Option String) :
    Option (ℕ × CallRecord) :=
  ((calls.get? callId).map fun c => (callId, c)).or
    ((truthy callSid).bind fun sid => calls.first? fun c => c.providerCallSid = some sid)

/-- The seconds between two times, those that have begun left out. -/
def seconds (startedAt now : ℤ) : ℤ := (now - startedAt).tdiv 1000000

/-- The record of a call that is over. -/
def ended (now : ℤ) (c : CallRecord) : CallRecord :=
  { c with
    endedAt := some now
    durationSeconds := (c.startedAt.map fun start => seconds start now).getD c.durationSeconds }

/-- The record with what the provider reports. -/
def reported (twilioStatus : String) (callSid : Option String) (now : ℤ) (c : CallRecord) :
    CallRecord :=
  let status := (statusOf twilioStatus).getD c.status
  let sid := if truthy c.providerCallSid = none then (truthy callSid).or c.providerCallSid
    else c.providerCallSid
  let c := { c with status, providerCallSid := sid }
  if IsFinal status then ended now c else c

/-- `update_call_status`. -/
def updateCallStatus (callId : ℕ) (twilioStatus : String) (callSid : Option String) (now : ℤ)
    (calls : Table CallRecord) : Table CallRecord :=
  match find calls callId callSid with
  | some (k, _) => calls.modify k (reported twilioStatus callSid now)
  | none => calls

/-! ## What is said -/

/-- `_append_transcript`. -/
def appendTranscript (role text : String) (now : ℤ) (c : CallRecord) : CallRecord :=
  { c with transcript := c.transcript ++ [⟨role, text, now⟩] }

/-- The record with what was said, and with the answer if there is one. -/
def spoken (speech : String) (answer : Except AppError String) (now : ℤ) (c : CallRecord) :
    CallRecord :=
  if speech = "" then c
  else
    let c := appendTranscript "user" speech now c
    match answer with
    | .ok reply => appendTranscript "assistant" reply now c
    | .error _ => c

/-- The record of a call that goes on with what was said. -/
def gathered (speech : String) (answer : CallRecord → String → Except AppError String) (now : ℤ)
    (c : CallRecord) : CallRecord :=
  spoken speech (answer c speech) now { c with status := .ongoing }

/-- `voice_twiml_gather`. -/
def voiceTwimlGather (callId : ℕ) (speech : Option String)
    (answer : CallRecord → String → Except AppError String) (now : ℤ)
    (calls : Table CallRecord) : Table CallRecord :=
  calls.modify callId
    (gathered (String.ofList (strip isSpace (speech.getD "").toList)) answer now)

/-! ## What those who take part say -/

/-- The user takes part in the call. -/
def TakesPart (userId : ℕ) (c : CallRecord) : Prop :=
  c.callerId = some userId ∨ c.calleeId = some userId

instance (userId : ℕ) (c : CallRecord) : Decidable (TakesPart userId c) :=
  inferInstanceAs (Decidable (_ ∨ _))

/-- The record with what a participant says. -/
def updated (status : CallStatus) (durationSeconds : Option ℤ) (notes : Option String) (now : ℤ)
    (c : CallRecord) : CallRecord :=
  { c with
    status
    durationSeconds := durationSeconds.getD c.durationSeconds
    notes := (truthy notes).or c.notes
    endedAt := if IsFinal status then some now else c.endedAt }

/-- `update_call`. -/
def updateCall (callId userId : ℕ) (status : String) (durationSeconds : Option ℤ)
    (notes : Option String) (now : ℤ) (calls : Table CallRecord) :
    Except AppError (Table CallRecord) := do
  let c ← orRaise (calls.get? callId) (.notFound "Call not found")
  raiseIf (¬ TakesPart userId c) (.forbidden "Not your call")
  let status ← orRaise (CallStatus.ofValue? status) (.uncaught "ValueError")
  return calls.modify callId (updated status durationSeconds notes now)

/-! ## Runs -/

inductive Call
  | status (callId : ℕ) (twilioStatus : String) (callSid : Option String) (now : ℤ)
  | gather (callId : ℕ) (speech : Option String)
      (answer : CallRecord → String → Except AppError String) (now : ℤ)
  | update (callId userId : ℕ) (status : String) (durationSeconds : Option ℤ)
      (notes : Option String) (now : ℤ)

def step (calls : Table CallRecord) : Call → Table CallRecord
  | .status callId twilioStatus callSid now => updateCallStatus callId twilioStatus callSid now calls
  | .gather callId speech answer now => voiceTwimlGather callId speech answer now calls
  | .update callId userId status durationSeconds notes now =>
    (updateCall callId userId status durationSeconds notes now calls).toOption.getD calls

/-- What has become of a call that is over, when it ended and how long it took. -/
def outcome (id : ℕ) (calls : Table CallRecord) : Option (CallStatus × Option ℤ × ℤ) :=
  ((calls.get? id).filter fun c => IsFinal c.status).map
    fun c => (c.status, c.endedAt, c.durationSeconds)

/-- The call has ended exactly if it is over. -/
def EndsWhenFinal (id : ℕ) (calls : Table CallRecord) : Prop :=
  ∀ c, calls.get? id = some c → (c.endedAt.isSome ↔ IsFinal c.status)

/-- Once the call is over, what has become of it stays, and it has always ended exactly if it is
over. -/
structure Finished (id : ℕ) (calls : Table CallRecord) (cs : List Call) : Prop where
  lasts : Lasts step (outcome id) calls cs
  ends : Throughout step (EndsWhenFinal id) calls cs

/-- What comes to the call, the record of which is `c`, says the same once more, at the time when it
ended. -/
def Repeats (id : ℕ) (calls : Table CallRecord) (c : CallRecord) : Call → Prop
  | .status callId twilioStatus callSid now =>
    (find calls callId callSid).map Prod.fst = some id →
      (∀ s ∈ statusOf twilioStatus, s = c.status) ∧ c.endedAt = some now ∧
        ∀ start ∈ c.startedAt, c.durationSeconds = seconds start now
  | .gather callId _ _ _ => callId ≠ id
  | .update callId userId status durationSeconds _ now =>
    callId = id → TakesPart userId c → ∀ s ∈ CallStatus.ofValue? status,
      (s = c.status ∧ c.endedAt = some now) ∧ ∀ d ∈ durationSeconds, d = c.durationSeconds

/-- The call is not over, or what comes to it says the same once more. -/
def Fits (id : ℕ) (calls : Table CallRecord) (call : Call) : Prop :=
  ∀ c, calls.get? id = some c → IsFinal c.status → Repeats id calls c call

section Steps

variable {calls : Table CallRecord} {id k : ℕ} {c : CallRecord} {call : Call}

theorem outcome_eq_some {b : CallStatus × Option ℤ × ℤ} : outcome id calls = some b ↔
    ∃ c, calls.get? id = some c ∧ IsFinal c.status ∧
      (c.status, c.endedAt, c.durationSeconds) = b := by
  simp only [outcome, Option.map_eq_some_iff, Option.filter_eq_some_iff, decide_eq_true_eq,
    and_assoc]

/-- What a call that is over keeps, if its record is rewritten. -/
theorem keeps_modify_iff {f : CallRecord → CallRecord} (hc : calls.get? id = some c)
    (hfinal : IsFinal c.status) :
    (∀ b, outcome id calls = some b → outcome id (calls.modify id f) = some b) ↔
      (f c).status = c.status ∧ (f c).endedAt = c.endedAt ∧
        (f c).durationSeconds = c.durationSeconds := by
  have hf : (calls.modify id f).get? id = some (f c) := by
    rw [Table.get?_modify_self, hc, Option.map_some]
  constructor
  · intro h
    obtain ⟨c', hc', -, hsame⟩ :=
      outcome_eq_some.1 (h _ (outcome_eq_some.2 ⟨c, hc, hfinal, rfl⟩))
    rw [hf] at hc'
    cases hc'
    simpa only [Prod.mk.injEq] using hsame
  · rintro ⟨hstatus, hended, hduration⟩ b hb
    obtain ⟨c', hc', -, rfl⟩ := outcome_eq_some.1 hb
    rw [hc] at hc'
    cases hc'
    exact outcome_eq_some.2 ⟨f c, hf, hstatus ▸ hfinal, by rw [hstatus, hended, hduration]⟩

/-- Rewriting another record. -/
theorem outcome_modify_of_ne {f : CallRecord → CallRecord} (h : k ≠ id) :
    outcome id (calls.modify k f) = outcome id calls := by
  unfold outcome
  rw [Table.get?_modify_of_ne calls f h.symm]

section Reported

variable {twilioStatus : String} {callSid : Option String} {now : ℤ}

theorem reported_status : (reported twilioStatus callSid now c).status =
    (statusOf twilioStatus).getD c.status := by
  unfold reported
  simp only
  split_ifs <;> rfl

theorem reported_endedAt : (reported twilioStatus callSid now c).endedAt =
    if IsFinal ((statusOf twilioStatus).getD c.status) then some now else c.endedAt := by
  unfold reported
  simp only
  by_cases h : IsFinal ((statusOf twilioStatus).getD c.status)
  · rw [if_pos h, if_pos h]
    rfl
  · rw [if_neg h, if_neg h]

theorem reported_durationSeconds (h : IsFinal ((statusOf twilioStatus).getD c.status)) :
    (reported twilioStatus callSid now c).durationSeconds =
      (c.startedAt.map fun start => seconds start now).getD c.durationSeconds := by
  unfold reported
  simp only
  rw [if_pos h]
  rfl

/-- A status that is reported leaves a call that is over as it is exactly if it says the same. -/
theorem reported_same_iff (hfinal : IsFinal c.status) :
    ((reported twilioStatus callSid now c).status = c.status ∧
      (reported twilioStatus callSid now c).endedAt = c.endedAt ∧
      (reported twilioStatus callSid now c).durationSeconds = c.durationSeconds) ↔
    (∀ s ∈ statusOf twilioStatus, s = c.status) ∧ c.endedAt = some now ∧
      ∀ start ∈ c.startedAt, c.durationSeconds = seconds start now := by
  have hmean : (statusOf twilioStatus).getD c.status = c.status ↔
      ∀ s ∈ statusOf twilioStatus, s = c.status := by
    cases statusOf twilioStatus <;> simp
  rw [reported_status, hmean]
  refine and_congr_right fun hsame => ?_
  have hkept : IsFinal ((statusOf twilioStatus).getD c.status) := by
    rw [hmean.2 hsame]
    exact hfinal
  rw [reported_endedAt, if_pos hkept, reported_durationSeconds hkept]
  refine and_congr eq_comm ?_
  cases c.startedAt with
  | none => simp
  | some start => simp [eq_comm]

end Reported

theorem spoken_status (speech : String) (answer : Except AppError String) (now : ℤ)
    (c : CallRecord) : (spoken speech answer now c).status = c.status := by
  unfold spoken
  split_ifs
  · rfl
  · cases answer <;> rfl

theorem spoken_endedAt (speech : String) (answer : Except AppError String) (now : ℤ)
    (c : CallRecord) : (spoken speech answer now c).endedAt = c.endedAt := by
  unfold spoken
  split_ifs
  · rfl
  · cases answer <;> rfl

/-- What is said makes a call go on. -/
theorem gathered_status (speech : String) (answer : CallRecord → String → Except AppError String)
    (now : ℤ) (c : CallRecord) : (gathered speech answer now c).status = .ongoing :=
  spoken_status _ _ _ _

/-- A participant leaves a call that is over as it is exactly by saying the same. -/
theorem updated_same_iff {s : CallStatus} {durationSeconds : Option ℤ} {notes : Option String}
    {now : ℤ} (hfinal : IsFinal c.status) :
    ((updated s durationSeconds notes now c).status = c.status ∧
      (updated s durationSeconds notes now c).endedAt = c.endedAt ∧
      (updated s durationSeconds notes now c).durationSeconds = c.durationSeconds) ↔
    (s = c.status ∧ c.endedAt = some now) ∧ ∀ d ∈ durationSeconds, d = c.durationSeconds := by
  rw [and_assoc]
  refine and_congr_right fun hsame => and_congr ?_ ?_
  · have hkept : IsFinal s := by
      rw [show s = c.status from hsame]
      exact hfinal
    unfold updated
    rw [if_pos hkept]
    exact eq_comm
  · unfold updated
    cases durationSeconds <;> simp

theorem step_gather (callId : ℕ) (speech : Option String)
    (answer : CallRecord → String → Except AppError String) (now : ℤ) :
    step calls (.gather callId speech answer now) = calls.modify callId
      (gathered (String.ofList (strip isSpace (speech.getD "").toList)) answer now) := rfl

/-- What the provider reports comes to no record, or rewrites one. -/
theorem step_status (callId : ℕ) (twilioStatus : String) (callSid : Option String) (now : ℤ)
    (calls : Table CallRecord) :
    (find calls callId callSid = none ∧
        step calls (.status callId twilioStatus callSid now) = calls) ∨
      ∃ r, find calls callId callSid = some r ∧
        step calls (.status callId twilioStatus callSid now) =
          calls.modify r.1 (reported twilioStatus callSid now) := by
  cases hfind : find calls callId callSid with
  | none => exact Or.inl ⟨rfl, by simp only [step, updateCallStatus, hfind]⟩
  | some r => exact Or.inr ⟨r, rfl, by simp only [step, updateCallStatus, hfind]⟩

/-- What a participant's update does: it is refused, or rewrites the record. -/
theorem step_update (callId userId : ℕ) (status : String) (durationSeconds : Option ℤ)
    (notes : Option String) (now : ℤ) (calls : Table CallRecord) :
    (step calls (.update callId userId status durationSeconds notes now) = calls ∧
      ∀ c, calls.get? callId = some c → TakesPart userId c → CallStatus.ofValue? status = none) ∨
    ∃ c s, calls.get? callId = some c ∧ TakesPart userId c ∧ CallStatus.ofValue? status = some s ∧
      step calls (.update callId userId status durationSeconds notes now) =
        calls.modify callId (updated s durationSeconds notes now) := by
  cases hrun : updateCall callId userId status durationSeconds notes now calls with
  | error e =>
    left
    refine ⟨?_, fun c hc hpart => ?_⟩
    · show (updateCall callId userId status durationSeconds notes now calls).toOption.getD calls = _
      rw [hrun]
      rfl
    · cases hstatus : CallStatus.ofValue? status with
      | none => rfl
      | some s =>
        have hok : updateCall callId userId status durationSeconds notes now calls =
            .ok (calls.modify callId (updated s durationSeconds notes now)) :=
          orRaise_bind_eq_ok.2 ⟨c, hc, raiseIf_bind_eq_ok.2 ⟨not_not.2 hpart,
            orRaise_bind_eq_ok.2 ⟨s, hstatus, rfl⟩⟩⟩
        rw [hrun] at hok
        cases hok
  | ok t =>
    right
    obtain ⟨c, hc, hrest⟩ := orRaise_bind_eq_ok.1 hrun
    obtain ⟨hpart, hrest⟩ := raiseIf_bind_eq_ok.1 hrest
    obtain ⟨s, hstatus, hwrite⟩ := orRaise_bind_eq_ok.1 hrest
    refine ⟨c, s, hc, not_not.1 hpart, hstatus, ?_⟩
    show (updateCall callId userId status durationSeconds notes now calls).toOption.getD calls = _
    rw [hrun]
    exact (pure_eq_ok.1 hwrite).symm

/-- A call that comes to nothing, or to another record, leaves what is over. -/
theorem keeps_of_other (h : step calls call = calls ∨
    ∃ k f, k ≠ id ∧ step calls call = calls.modify k f) :
    ∀ b, outcome id calls = some b → outcome id (step calls call) = some b := by
  intro b hb
  rcases h with hsame | ⟨k, f, hk, hwrite⟩
  · rw [hsame]
    exact hb
  · rw [hwrite, outcome_modify_of_ne hk]
    exact hb

/-- A call leaves what is over as it is exactly if it says the same. -/
theorem keeps_iff_repeats (hc : calls.get? id = some c) (hfinal : IsFinal c.status)
    (call : Call) :
    (∀ b, outcome id calls = some b → outcome id (step calls call) = some b) ↔
      Repeats id calls c call := by
  cases call with
  | status callId twilioStatus callSid now =>
    rcases step_status callId twilioStatus callSid now calls with ⟨hfind, hstep⟩ | ⟨r, hfind, hstep⟩
    · refine iff_of_true (keeps_of_other (Or.inl hstep)) fun h => ?_
      rw [hfind] at h
      cases h
    · by_cases hk : r.1 = id
      · have hrepeats : Repeats id calls c (.status callId twilioStatus callSid now) ↔ _ :=
          forall_prop_of_true (by rw [hfind, Option.map_some, hk])
        rw [hstep, hk, hrepeats]
        exact (keeps_modify_iff hc hfinal).trans (reported_same_iff hfinal)
      · refine iff_of_true (keeps_of_other (Or.inr ⟨_, _, hk, hstep⟩)) fun h => ?_
        rw [hfind] at h
        exact absurd (Option.some.inj h) hk
  | gather callId speech answer now =>
    by_cases hk : callId = id
    · subst hk
      refine iff_of_false (fun h => ?_) (fun h => h rfl)
      have hsame := ((keeps_modify_iff hc hfinal).1 h).1
      rw [gathered_status] at hsame
      have hongoing : ¬ IsFinal .ongoing := by decide
      exact hongoing (hsame ▸ hfinal)
    · exact iff_of_true (keeps_of_other (Or.inr ⟨_, _, hk, step_gather callId speech answer now⟩)) hk
  | update callId userId status durationSeconds notes now =>
    rcases step_update callId userId status durationSeconds notes now calls with
      ⟨hsame, hrefused⟩ | ⟨c', s, hc', hpart, hstatus, hwrite⟩
    · refine iff_of_true (keeps_of_other (Or.inl hsame)) ?_
      rintro rfl hpart s hs
      rw [hrefused c hc hpart] at hs
      cases hs
    · by_cases hk : callId = id
      · subst hk
        rw [hc] at hc'
        cases hc'
        rw [hwrite]
        refine ((keeps_modify_iff hc hfinal).trans (updated_same_iff hfinal)).trans ?_
        constructor
        · intro h _ _ s' hs'
          rw [hstatus] at hs'
          cases hs'
          exact h
        · intro h
          exact h rfl hpart s hstatus
      · exact iff_of_true (keeps_of_other (Or.inr ⟨_, _, hk, hwrite⟩)) fun h => absurd h hk

/-- A call leaves what is over as it is exactly if it fits. -/
theorem keeps_iff (id : ℕ) (calls : Table CallRecord) (call : Call) :
    (∀ b, outcome id calls = some b → outcome id (step calls call) = some b) ↔
      Fits id calls call := by
  by_cases hover : ∃ c, calls.get? id = some c ∧ IsFinal c.status
  · obtain ⟨c, hc, hfinal⟩ := hover
    rw [keeps_iff_repeats hc hfinal]
    constructor
    · intro h c' hc' _
      rw [hc] at hc'
      cases hc'
      exact h
    · intro h
      exact h c hc hfinal
  · refine iff_of_true ?_ fun c hc hfinal => absurd ⟨c, hc, hfinal⟩ hover
    intro b hb
    obtain ⟨c, hc, hfinal, -⟩ := outcome_eq_some.1 hb
    exact absurd ⟨c, hc, hfinal⟩ hover

/-! ### The end of a call -/

/-- A record that is rewritten has ended exactly if it is over. -/
def EndsRight (f : CallRecord → CallRecord) : Prop :=
  ∀ c, (c.endedAt.isSome ↔ IsFinal c.status) → ¬ IsFinal c.status →
    ((f c).endedAt.isSome ↔ IsFinal (f c).status)

theorem endsRight_reported (twilioStatus : String) (callSid : Option String) (now : ℤ) :
    EndsRight (reported twilioStatus callSid now) := by
  intro c hc hnot
  rw [reported_endedAt, reported_status]
  split_ifs with hfinal
  · exact iff_of_true rfl hfinal
  · exact iff_of_false (fun h => hnot (hc.1 h)) hfinal

theorem endsRight_updated (s : CallStatus) (durationSeconds : Option ℤ) (notes : Option String)
    (now : ℤ) : EndsRight (updated s durationSeconds notes now) := by
  intro c hc hnot
  unfold updated
  by_cases hfinal : IsFinal s
  · simp [hfinal]
  · simp only [if_neg hfinal]
    exact iff_of_false (fun h => hnot (hc.1 h)) hfinal

/-- A table in which one record is rewritten. -/
theorem endsWhenFinal_modify {f : CallRecord → CallRecord} (h : EndsWhenFinal id calls)
    (hnot : ∀ c, calls.get? id = some c → ¬ IsFinal c.status) (hf : EndsRight f) (k : ℕ) :
    EndsWhenFinal id (calls.modify k f) := by
  intro c hc
  rw [Table.get?_modify] at hc
  split_ifs at hc with hk
  · obtain ⟨c', hc', rfl⟩ := Option.map_eq_some_iff.1 hc
    exact hf c' (h c' hc') (hnot c' hc')
  · exact h c hc

/-- A call that fits leaves it so that the call has ended exactly if it is over. -/
theorem endsWhenFinal_step (h : EndsWhenFinal id calls) (hfits : Fits id calls call) :
    EndsWhenFinal id (step calls call) := by
  by_cases hover : ∃ c, calls.get? id = some c ∧ IsFinal c.status
  · obtain ⟨c, hc, hfinal⟩ := hover
    obtain ⟨c', hc', hfinal', hsame⟩ := outcome_eq_some.1
      ((keeps_iff id calls call).2 hfits _ (outcome_eq_some.2 ⟨c, hc, hfinal, rfl⟩))
    intro c'' hc''
    rw [hc'] at hc''
    cases hc''
    rw [show c'.endedAt = c.endedAt from congrArg (fun b => b.2.1) hsame]
    exact iff_of_true ((h c hc).2 hfinal) hfinal'
  · have hnot : ∀ c, calls.get? id = some c → ¬ IsFinal c.status :=
      fun c hc hfinal => hover ⟨c, hc, hfinal⟩
    cases call with
    | status callId twilioStatus callSid now =>
      rcases step_status callId twilioStatus callSid now calls with ⟨_, hstep⟩ | ⟨r, _, hstep⟩
      · rw [hstep]
        exact h
      · rw [hstep]
        exact endsWhenFinal_modify h hnot (endsRight_reported _ _ _) r.1
    | gather callId speech answer now =>
      refine endsWhenFinal_modify h hnot (fun c hc hopen => ?_) callId
      rw [gathered_status, gathered, spoken_endedAt]
      exact iff_of_false (fun hended => hopen (hc.1 hended)) (by decide)
    | update callId userId status durationSeconds notes now =>
      rcases step_update callId userId status durationSeconds notes now calls with
        ⟨hsame, -⟩ | ⟨_, s, _, _, _, hwrite⟩
      · rw [hsame]
        exact h
      · rw [hwrite]
        exact endsWhenFinal_modify h hnot (endsRight_updated _ _ _ _) callId

/-- A call stays finished in a run exactly if it starts right and every writer that comes to it
when it is over says the same again. -/
theorem finished_iff (id : ℕ) (calls : Table CallRecord) (cs : List Call) :
    Finished id calls cs ↔ EndsWhenFinal id calls ∧ Stepwise step (Fits id) calls cs := by
  have hstepwise : Lasts step (outcome id) calls cs ↔ Stepwise step (Fits id) calls cs := by
    rw [lasts_iff_stepwise]
    exact forall₃_congr fun _ _ _ => keeps_iff _ _ _
  constructor
  · intro h
    exact ⟨h.ends [] List.nil_prefix, hstepwise.1 h.lasts⟩
  · rintro ⟨hstart, hfits⟩
    refine ⟨hstepwise.2 hfits, ?_⟩
    exact throughout_of_stepwise (fun _ _ hs hc => endsWhenFinal_step hs hc) hstart hfits

end Steps

/-! ## A callback that comes late -/

/-- A call that rings, from user 1 to user 2. -/
def ringing : Table CallRecord :=
  .ofList [⟨some 1, some 2, .ringing, none, [], 0, none, some 0, none⟩]

/-- The call is over after a minute, and then what was said comes in. -/
def lateSpeech : List Call :=
  [.status 1 "completed" none 60000000, .gather 1 none (fun _ _ => .ok "") 61000000]

theorem lateSpeech_goesOn :
    outcome 1 (run step ringing (lateSpeech.take 1)) = some (.completed, some 60000000, 60) ∧
      ((run step ringing lateSpeech).get? 1).map (fun c => (c.status, c.endedAt)) =
        some (.ongoing, some 60000000) ∧
      ¬ Finished 1 ringing lateSpeech := by
  have hover : outcome 1 (run step ringing (lateSpeech.take 1)) =
      some (.completed, some 60000000, 60) := by decide +kernel
  refine ⟨hover, by decide +kernel, fun h => ?_⟩
  have hlasts := h.lasts (lateSpeech.take 1) (lateSpeech.drop 1) (List.prefix_refl _) _ hover
  revert hlasts
  decide +kernel

end Calls

end SweetCrust

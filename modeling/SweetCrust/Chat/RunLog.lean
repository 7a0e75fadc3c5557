import SweetCrust.Lib.Text
import SweetCrust.Lib.Window

/-!
# The log of the assistant's runs

`monitor.py` keeps the 200 newest runs of the assistant in a `deque` that all threads share,
under a lock.  A question to the assistant is tried by the agent, then by the linear graph,
then by the rules; each attempt has a run of its own, which it starts, notes its tools in, and
finishes.  An attempt that raises between its start and its `try` is never finished.

* `LogOp`, `logStep`, `Request.respondOps` — the functions, and what one question does to the
  log.
* `shown_spec` — along every interleaving of the questions the log shows the newest runs, and
  each of them as its own attempt has left it.
* `Attempt.row` — how it has left it in the end.
* `recentRuns_spec` — so does `recent_runs`, up to its limit.
-/

namespace SweetCrust

open Text Runs

namespace Monitor

inductive RunStatus
  | running | ok | blocked | error
  deriving DecidableEq, Inhabited

/-- A row of `_RUNS`.  Times are in microseconds. -/
structure Run where
  id : String
  userId : ℤ
  audience : String
  message : String
  provider : String
  status : RunStatus := .running
  tools : List String := []
  ragChunks : ℕ := 0
  replyPreview : Option String := none
  error : Option String := none
  ms : Option ℤ := none
  startedAt : ℤ
  deriving DecidableEq

/-- `text[:n]`. -/
def cut (n : ℕ) (text : String) : String := String.ofList (text.toList.take n)

/-- A call of one of the functions. -/
inductive LogOp
  | startRun (id : String) (userId : ℤ) (audience message provider : String) (now : ℤ)
  | noteTools (runId : String) (toolNames : List String) (ragChunks : ℕ)
  | finishRun (runId reply : String) (error provider : Option String) (blocked : Bool) (now : ℤ)
  deriving DecidableEq

/-- The row that `start_run` puts in front. -/
def Run.start (id : String) (userId : ℤ) (audience message provider : String) (now : ℤ) : Run :=
  { id, userId, audience, message := cut 300 message, provider, startedAt := now }

/-- What `note_tools` does to the row. -/
def Run.noteTools (toolNames : List String) (ragChunks : ℕ) (r : Run) : Run :=
  { r with tools := toolNames, ragChunks }

/-- What `finish_run` does to the row. -/
def Run.finish (reply : String) (error provider : Option String) (blocked : Bool) (now : ℤ)
    (r : Run) : Run :=
  { r with
    status := if (truthy error).isSome then .error else if blocked then .blocked else .ok
    replyPreview := some (cut 240 reply)
    error
    provider := (truthy provider).getD r.provider
    ms := some ((now - r.startedAt).tdiv 1000) }

/-- A call as an event of the log. -/
def LogOp.event : LogOp → Window.Event Run String
  | .startRun id userId audience message provider now =>
    .push (.start id userId audience message provider now)
  | .noteTools runId toolNames ragChunks => .change runId (Run.noteTools toolNames ragChunks)
  | .finishRun runId reply error provider blocked now =>
    .change runId (Run.finish reply error provider blocked now)

/-- `deque(maxlen=200)`. -/
def maxlen : ℕ := 200

/-- `_RUNS` after a call. -/
def logStep (runs : List Run) (op : LogOp) : List Run := Window.step Run.id maxlen runs op.event

/-- The runs that `recent_runs` answers with; it leaves out when they started. -/
def recentRuns (limit : ℕ) (runs : List Run) : List Run := runs.take limit

/-! ## What a question does to the log -/

/-- Who asks, and the message that the guardrails have passed. -/
structure Question where
  userId : ℤ
  audience : String
  message : String

/-- What becomes of one attempt to answer. -/
inductive Attempt
  /-- It raises before its run is started. -/
  | unstarted
  /-- The guardrails refuse, and that is the answer. -/
  | refused
  /-- It raises outside of its `try`. -/
  | unfinished (id : String) (startedAt : ℤ)
  /-- It raises within, with a text, having noted its tools or not. -/
  | failed (id : String) (startedAt : ℤ) (noted : Option (List String × ℕ)) (error : String)
      (finishedAt : ℤ)
  | replied (id : String) (startedAt : ℤ) (noted : Option (List String × ℕ))
      (reply provider : String) (blocked : Bool) (finishedAt : ℤ)

/-- The run of the attempt, where it has one. -/
def Attempt.id : Attempt → Option String
  | .unstarted => none
  | .refused => none
  | .unfinished id _ => some id
  | .failed id _ _ _ _ => some id
  | .replied id _ _ _ _ _ _ => some id

/-- The caller has an answer, and tries nothing further. -/
def Attempt.answers : Attempt → Bool
  | .refused => true
  | .replied .. => true
  | _ => false

/-- The calls of one attempt. -/
def Attempt.ops (q : Question) (provider : String) : Attempt → List LogOp
  | .unstarted => []
  | .refused => []
  | .unfinished id startedAt => [.startRun id q.userId q.audience q.message provider startedAt]
  | .failed id startedAt noted error finishedAt =>
    .startRun id q.userId q.audience q.message provider startedAt ::
      (noted.elim [] fun n => [.noteTools id n.1 n.2]) ++
      [.finishRun id "" (some error) none false finishedAt]
  | .replied id startedAt noted reply answered blocked finishedAt =>
    .startRun id q.userId q.audience q.message provider startedAt ::
      (noted.elim [] fun n => [.noteTools id n.1 n.2]) ++
      [.finishRun id reply none (some answered) blocked finishedAt]

/-- The three ways to answer, in the order in which they are tried. -/
inductive Path
  | agentic | linear | rules
  deriving DecidableEq

/-- A call of `respond` with a message that the guardrails have passed. -/
structure Request where
  question : Question
  /-- `settings.llm_provider`. -/
  llmProvider : String
  /-- `settings.llm_configured`, and not the mock. -/
  configured : Bool
  attempt : Path → Attempt

/-- The provider that a run is started with. -/
def Request.provider (r : Request) : Path → String
  | .agentic => "langgraph:" ++ r.llmProvider
  | .linear => "langgraph-linear:" ++ r.llmProvider
  | .rules => "rules"

/-- The paths that are tried. -/
def Request.tried (r : Request) : List Path :=
  if r.configured then
    if (r.attempt .agentic).answers then [.agentic]
    else if (r.attempt .linear).answers then [.agentic, .linear]
    else [.agentic, .linear, .rules]
  else [.rules]

/-- The calls of one attempt of the request, with the path. -/
def Request.pathOps (r : Request) (p : Path) : List (Path × LogOp) :=
  ((r.attempt p).ops r.question (r.provider p)).map fun op => (p, op)

/-- The calls of `respond`. -/
def Request.respondOps (r : Request) : List (Path × LogOp) := r.tried.flatMap r.pathOps

/-! ## What an attempt leaves -/

/-- The row of an attempt that has come to its end. -/
def Attempt.row (q : Question) (provider : String) : Attempt → Option Run
  | .unstarted => none
  | .refused => none
  | .unfinished id startedAt => some (.start id q.userId q.audience q.message provider startedAt)
  | .failed id startedAt noted error finishedAt =>
    some
      { Run.start id q.userId q.audience q.message provider startedAt with
        -- a text that is empty is taken for none
        status := if error = "" then .ok else .error
        tools := noted.elim [] Prod.fst
        ragChunks := noted.elim 0 Prod.snd
        replyPreview := some ""
        error := some error
        ms := some ((finishedAt - startedAt).tdiv 1000) }
  | .replied id startedAt noted reply answered blocked finishedAt =>
    some
      { Run.start id q.userId q.audience q.message provider startedAt with
        status := if blocked then .blocked else .ok
        tools := noted.elim [] Prod.fst
        ragChunks := noted.elim 0 Prod.snd
        replyPreview := some (cut 240 reply)
        provider := if answered = "" then provider else answered
        ms := some ((finishedAt - startedAt).tdiv 1000) }

section Attempts

variable {q : Question} {provider : String} {a : Attempt}

/-- What the calls of an attempt make of its entry. -/
def entryOf (ops : List LogOp) : Option Run := (ops.map LogOp.event).foldl Window.entry none

theorem isSome_truthy (t : String) : (truthy (some t)).isSome = decide (t ≠ "") := by
  by_cases h : t = ""
  · simp [h, truthy]
  · simp [h, truthy]

theorem getD_truthy (t d : String) : (truthy (some t)).getD d = if t = "" then d else t := by
  by_cases h : t = ""
  · subst h
    rfl
  · rw [truthy_some h, if_neg h, Option.getD_some]

theorem cut_empty (n : ℕ) : cut n "" = "" := by simp [cut]

theorem entryOf_ops (q : Question) (provider : String) (a : Attempt) :
    entryOf (a.ops q provider) = a.row q provider := by
  cases a with
  | unstarted => rfl
  | refused => rfl
  | unfinished id startedAt => rfl
  | failed id startedAt noted error finishedAt =>
    by_cases he : error = ""
    · cases noted <;>
        simp [entryOf, Attempt.ops, Attempt.row, LogOp.event, Window.entry, Run.finish,
          Run.noteTools, Run.start, isSome_truthy, cut_empty, he]
    · cases noted <;>
        simp [entryOf, Attempt.ops, Attempt.row, LogOp.event, Window.entry, Run.finish,
          Run.noteTools, Run.start, isSome_truthy, cut_empty, he]
  | replied id startedAt noted reply answered blocked finishedAt =>
    cases noted <;>
      simp [entryOf, Attempt.ops, Attempt.row, LogOp.event, Window.entry, Run.finish,
        Run.noteTools, Run.start, getD_truthy]

/-- The calls after the first one change the run. -/
theorem change_of_mem_tail {op : LogOp} (h : op ∈ (a.ops q provider).tail) :
    ∃ k f, a.id = some k ∧ op.event = .change k f := by
  have hlast : ∀ (id : String) (noted : Option (List String × ℕ)) (last : LogOp),
      op ∈ (noted.elim [] fun n => [LogOp.noteTools id n.1 n.2]) ++ [last] →
      (∃ f, last.event = .change id f) → ∃ f, op.event = .change id f := by
    intro id noted last hop hf
    rcases List.mem_append.1 hop with hop | hop
    · cases noted with
      | none => simp at hop
      | some n =>
        rw [List.mem_singleton.1 hop]
        exact ⟨_, rfl⟩
    · rw [List.mem_singleton.1 hop]
      exact hf
  cases a with
  | unstarted => simp [Attempt.ops] at h
  | refused => simp [Attempt.ops] at h
  | unfinished id startedAt => simp [Attempt.ops] at h
  | failed id startedAt noted error finishedAt =>
    obtain ⟨f, hf⟩ := hlast id noted _ h ⟨_, rfl⟩
    exact ⟨id, f, rfl, hf⟩
  | replied id startedAt noted reply answered blocked finishedAt =>
    obtain ⟨f, hf⟩ := hlast id noted _ h ⟨_, rfl⟩
    exact ⟨id, f, rfl, hf⟩

/-- The first call starts the run. -/
theorem push_of_head {op : LogOp} (h : op ∈ (a.ops q provider).head?) :
    ∃ x, a.id = some x.id ∧ op.event = .push x := by
  cases a with
  | unstarted => simp [Attempt.ops] at h
  | refused => simp [Attempt.ops] at h
  | unfinished id startedAt =>
    cases h
    exact ⟨_, rfl, rfl⟩
  | failed id startedAt noted error finishedAt =>
    cases h
    exact ⟨_, rfl, rfl⟩
  | replied id startedAt noted reply answered blocked finishedAt =>
    cases h
    exact ⟨_, rfl, rfl⟩

/-- Every call of an attempt is about its own run. -/
theorem key_of_mem_ops {op : LogOp} (h : op ∈ a.ops q provider) :
    a.id = some (op.event.key Run.id) := by
  cases hops : a.ops q provider with
  | nil => simp [hops] at h
  | cons first rest =>
    rw [hops] at h
    rcases List.mem_cons.1 h with rfl | h
    · have hhead : op ∈ (a.ops q provider).head? := by simp [hops]
      obtain ⟨x, hid, hx⟩ := push_of_head hhead
      rw [hid, hx, Window.key_push]
    · have htail : op ∈ (a.ops q provider).tail := by simpa [hops] using h
      obtain ⟨k, f, hid, hf⟩ := change_of_mem_tail htail
      rw [hid, hf, Window.key_change]

end Attempts

/-! ## Many questions at once -/

section Interleavings

variable {ι : Type} [DecidableEq ι] {request : ι → Request} {es : List (ι × Path × LogOp)}

/-- The calls of one request. -/
def ownOf (es : List (ι × Path × LogOp)) (i : ι) : List (Path × LogOp) :=
  (es.filter fun e => e.1 = i).map Prod.snd

/-- The calls of one attempt. -/
def own (es : List (ι × Path × LogOp)) (i : ι) (p : Path) : List LogOp :=
  ((ownOf es i).filter fun e => e.1 = p).map Prod.snd

/-- `_RUNS` after the calls. -/
def logAfter (es : List (ι × Path × LogOp)) : List Run := run logStep [] (es.map fun e => e.2.2)

/-- Each request makes its calls in order, and is through or not.  The ids that `uuid4` has
given are distinct. -/
structure Interleaved (request : ι → Request) (es : List (ι × Path × LogOp)) : Prop where
  order : ∀ i, ownOf es i <+: (request i).respondOps
  ids : ∀ i p j q k, ((request i).attempt p).id = some k → ((request j).attempt q).id = some k →
    i = j ∧ p = q

omit [DecidableEq ι] in
theorem filter_respondOps (r : Request) (p : Path) :
    (r.respondOps.filter fun e => e.1 = p).map Prod.snd =
      if p ∈ r.tried then (r.attempt p).ops r.question (r.provider p) else [] := by
  have hpath : ∀ p', ((r.pathOps p').filter fun e => e.1 = p).map Prod.snd =
      if p' = p then (r.attempt p).ops r.question (r.provider p) else [] := by
    intro p'
    by_cases h : p' = p
    · subst h
      simp [Request.pathOps, List.filter_map, Function.comp_def]
    · simp [Request.pathOps, List.filter_map, Function.comp_def, h]
  unfold Request.respondOps Request.tried
  split_ifs <;> cases p <;> simp [List.filter_append, hpath] at *

/-- The calls of one attempt come in its order. -/
theorem own_initial (h : Interleaved request es) (i : ι) (p : Path) :
    own es i p <+: ((request i).attempt p).ops (request i).question ((request i).provider p) := by
  have hfilter := ((h.order i).filter fun e => e.1 = p).map Prod.snd
  rw [filter_respondOps] at hfilter
  split_ifs at hfilter with hp
  · exact hfilter
  · rw [show own es i p = [] from List.prefix_nil.1 hfilter]
    exact List.nil_prefix

theorem own_eq (es : List (ι × Path × LogOp)) (i : ι) (p : Path) :
    own es i p = (es.filter fun e => e.1 = i ∧ e.2.1 = p).map fun e => e.2.2 := by
  simp only [own, ownOf, List.filter_map, List.map_map, List.filter_filter, Function.comp_def]
  congr 1
  refine List.filter_congr fun e _ => ?_
  simp [Bool.and_comm]

/-- The call of an attempt has the run of the attempt for its key. -/
theorem id_of_mem (h : Interleaved request es) {e : ι × Path × LogOp} (he : e ∈ es) :
    ((request e.1).attempt e.2.1).id = some (e.2.2.event.key Run.id) := by
  refine key_of_mem_ops ((own_initial h e.1 e.2.1).subset ?_)
  rw [own_eq]
  exact List.mem_map_of_mem (List.mem_filter.2 ⟨he, by simp⟩)

/-- The events with the key of a run are those of its attempt. -/
theorem filter_event (h : Interleaved request es) {i : ι} {p : Path} {k : String}
    (hid : ((request i).attempt p).id = some k) :
    ((es.map fun e => e.2.2.event).filter fun e => e.key Run.id = k) =
      (own es i p).map LogOp.event := by
  rw [own_eq, List.filter_map, List.map_map]
  congr 1
  refine List.filter_congr fun e he => ?_
  have hkey := id_of_mem h he
  simp only [Function.comp_apply, decide_eq_decide]
  constructor
  · rintro rfl
    obtain ⟨hi, hp⟩ := h.ids _ _ _ _ _ hkey hid
    exact ⟨hi, hp⟩
  · rintro ⟨rfl, rfl⟩
    rw [hid] at hkey
    exact (Option.some.inj hkey).symm

omit [DecidableEq ι] in
/-- An attempt starts at most one run. -/
theorem length_pushed_ops (q : Question) (provider : String) (a : Attempt) :
    (Window.pushed Run.id ((a.ops q provider).map LogOp.event)).length ≤ 1 := by
  cases hops : a.ops q provider with
  | nil => simp [Window.pushed]
  | cons first rest =>
    have hrest : Window.pushed Run.id (rest.map LogOp.event) = [] := by
      refine List.filterMap_eq_nil_iff.2 fun e he => ?_
      obtain ⟨op, hop, rfl⟩ := List.mem_map.1 he
      have htail : op ∈ (a.ops q provider).tail := by simpa [hops] using hop
      obtain ⟨k, f, -, hf⟩ := change_of_mem_tail htail
      rw [hf]
    have hcons : Window.pushed Run.id ((first :: rest).map LogOp.event) =
        Window.pushed Run.id [first.event] ++ Window.pushed Run.id (rest.map LogOp.event) := by
      simp only [Window.pushed, List.map_cons, ← List.filterMap_append, List.singleton_append]
    rw [hcons, hrest, List.append_nil]
    exact List.length_filterMap_le _ _

theorem nodup_started (h : Interleaved request es) :
    (Window.pushed Run.id (es.map fun e => e.2.2.event)).Nodup := by
  refine Window.nodup_pushed fun k => ?_
  by_cases hk : ∃ i p, ((request i).attempt p).id = some k
  · obtain ⟨i, p, hid⟩ := hk
    rw [filter_event h hid]
    exact (Window.pushed_sublist ((own_initial h i p).map LogOp.event).sublist).length_le.trans
      (length_pushed_ops ..)
  · have hnil : ((es.map fun e => e.2.2.event).filter fun e => e.key Run.id = k) = [] := by
      refine List.filter_eq_nil_iff.2 fun x hx => ?_
      obtain ⟨e, he, rfl⟩ := List.mem_map.1 hx
      simp only [decide_eq_true_eq]
      rintro rfl
      exact hk ⟨_, _, id_of_mem h he⟩
    rw [hnil]
    simp [Window.pushed]

/-- A change keeps the id of a run. -/
theorem keepsId (op : LogOp) : Window.KeepsKey Run.id op.event := by
  intro k f hf x
  cases op with
  | startRun id userId audience message provider now => cases hf
  | noteTools runId toolNames ragChunks =>
    cases hf
    rfl
  | finishRun runId reply error provider blocked now =>
    cases hf
    rfl

/-- The runs started, in their order. -/
def started (es : List (ι × Path × LogOp)) : List String :=
  Window.pushed Run.id (es.map fun e => e.2.2.event)

/-- An attempt of a request that has come to its end has made all its calls, and was tried. -/
theorem row_of_done {i : ι} {p : Path} {r : Run} (hdone : ownOf es i = (request i).respondOps)
    (hentry : entryOf (own es i p) = some r) : p ∈ (request i).tried ∧
      ((request i).attempt p).row (request i).question ((request i).provider p) = some r := by
  have hown := filter_respondOps (request i) p
  rw [← hdone] at hown
  split_ifs at hown with hp
  · refine ⟨hp, ?_⟩
    rw [← entryOf_ops, ← hown]
    exact hentry
  · have hnil : own es i p = [] := hown
    rw [hnil] at hentry
    cases hentry

omit [DecidableEq ι] in
theorem logAfter_eq (es : List (ι × Path × LogOp)) :
    logAfter es = run (Window.step Run.id maxlen) [] (es.map fun e => e.2.2.event) := by
  simp only [logAfter, run, List.foldl_map]
  rfl

theorem logAfter_spec (h : Interleaved request es) :
    (logAfter es).map Run.id = (started es).reverse.take maxlen ∧
      ∀ r ∈ logAfter es, Window.history Run.id (es.map fun e => e.2.2.event) r.id = some r := by
  have hkeep : ∀ x ∈ es.map fun e => e.2.2.event, Window.KeepsKey Run.id x := fun x hx => by
    obtain ⟨e, -, rfl⟩ := List.mem_map.1 hx
    exact keepsId _
  rw [logAfter_eq]
  exact Window.run_step_spec maxlen hkeep (nodup_started h)

/-- Along every interleaving of any number of questions the log shows the newest 200 of the runs
started, the newest first.  Each of them is what the calls that its own attempt has made so far
have made of it, and is as the attempt leaves it once the question has come to its end. -/
theorem shown_spec (h : Interleaved request es) :
    (logAfter es).map Run.id = (started es).reverse.take maxlen ∧
      ∀ r ∈ logAfter es, ∃ i p, ((request i).attempt p).id = some r.id ∧
        entryOf (own es i p) = some r ∧
        own es i p <+: ((request i).attempt p).ops (request i).question ((request i).provider p) ∧
        (ownOf es i = (request i).respondOps → p ∈ (request i).tried ∧
          ((request i).attempt p).row (request i).question ((request i).provider p) = some r) := by
  have hspec := logAfter_spec h
  refine ⟨hspec.1, fun r hr => ?_⟩
  have hhistory := hspec.2 r hr
  -- a run with a history is that of some call
  obtain ⟨e, he, hkey⟩ : ∃ e ∈ es, e.2.2.event.key Run.id = r.id := by
    by_contra hno
    push Not at hno
    have hnil : ((es.map fun e => e.2.2.event).filter fun e => e.key Run.id = r.id) = [] := by
      refine List.filter_eq_nil_iff.2 fun x hx => ?_
      obtain ⟨e, he, rfl⟩ := List.mem_map.1 hx
      simpa using hno e he
    simp [Window.history, hnil] at hhistory
  have hid := id_of_mem h he
  rw [hkey] at hid
  have hentry : entryOf (own es e.1 e.2.1) = some r := by
    rw [← hhistory, Window.history, filter_event h hid]
    rfl
  exact ⟨e.1, e.2.1, hid, hentry, own_initial h _ _, fun hdone => row_of_done hdone hentry⟩

/-- `recent_runs` answers with the newest of the runs started, as the log has them. -/
theorem recentRuns_spec (h : Interleaved request es) (limit : ℕ) :
    (recentRuns limit (logAfter es)).map Run.id = (started es).reverse.take (min limit maxlen) ∧
      ∀ r ∈ recentRuns limit (logAfter es),
        Window.history Run.id (es.map fun e => e.2.2.event) r.id = some r := by
  have hspec := logAfter_spec h
  unfold recentRuns
  refine ⟨?_, fun r hr => hspec.2 r (List.mem_of_mem_take hr)⟩
  rw [List.map_take, hspec.1, List.take_take]

end Interleavings

/-! ### Two questions at once -/

/-- The agent fails with a text that is empty and the linear graph answers; beside it the rules
answer another question. -/
def twoRequests : Bool → Request
  | false =>
    { question := ⟨7, "customer", "cakes?"⟩, llmProvider := "groq", configured := true
      attempt := fun
        | .agentic => .failed "a" 0 none "" 2000
        | .linear => .replied "b" 3000 none "Yes." "langchain:groq" false 9000
        | .rules => .unstarted }
  | true =>
    { question := ⟨8, "retailer", "credit?"⟩, llmProvider := "groq", configured := false
      attempt := fun
        | .rules => .replied "c" 1000 none "Ask the owner." "rules" false 4000
        | _ => .unstarted }

/-- The calls of the two, one in turn with the other. -/
def inTurn : List (Bool × Path × LogOp) :=
  (twoRequests false).respondOps.zip (twoRequests true).respondOps |>.flatMap (fun e =>
    [(false, e.1), (true, e.2)]) |>.append
      (((twoRequests false).respondOps.drop 2).map fun e => (false, e))

theorem interleaved_inTurn : Interleaved twoRequests inTurn where
  order i := by
    cases i <;> decide
  ids i p j q k hi hj := by
    cases i <;> cases p <;> cases j <;> cases q <;>
      simp_all [twoRequests, Attempt.id] <;> subst hi <;> revert hj <;> decide

/-- The failure is shown as a success. -/
theorem shown_inTurn : ((logAfter inTurn).map Run.id = (started inTurn).reverse.take maxlen ∧
    ∀ r ∈ logAfter inTurn, ∃ i p, ((twoRequests i).attempt p).id = some r.id ∧
      entryOf (own inTurn i p) = some r ∧
      own inTurn i p <+: ((twoRequests i).attempt p).ops (twoRequests i).question
        ((twoRequests i).provider p) ∧
      (ownOf inTurn i = (twoRequests i).respondOps → p ∈ (twoRequests i).tried ∧
        ((twoRequests i).attempt p).row (twoRequests i).question
          ((twoRequests i).provider p) = some r)) ∧
    (logAfter inTurn).map (fun r => (r.id, r.status)) = [("b", .ok), ("c", .ok), ("a", .ok)] :=
  ⟨shown_spec interleaved_inTurn, by decide⟩

end Monitor

end SweetCrust

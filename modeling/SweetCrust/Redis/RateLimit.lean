import SweetCrust.Lib.Processes
import SweetCrust.Redis.Lock

/-!
# Rate limits

`redis_incr` counts a call with INCR, and lets the counter expire with a second command, EXPIRE, if
the count is one.  `enforce_rate` and `send_otp` refuse a call whose count is over the limit, and
let a call through without a count if Redis has not answered.  A counter that EXPIRE does not reach
stays for good.

* `next`, `event` — the commands of the calls for one key.
* `AtMost` — from the creation of a counter to its end no more calls are admitted than the limit.
* `LetsGo` — a call after a window without calls is not refused.
* `limits_and_lets_go` — the first is always so, and the second if whoever creates a counter also
  sets its time to live.
* `stuck_forever` — without that a full counter stays full.
-/

namespace SweetCrust

open Runs

namespace Redis

namespace RateLimit

/-- The arguments of `enforce_rate` for a key. -/
structure Rule where
  limit : ℤ
  windowSec : ℤ

/-- The rule of `send_otp`. -/
def otpRule : Rule := ⟨5, 600⟩

/-- A count, and when it expires if it does. -/
structure Counter (𝕜 : Type) where
  count : ℕ
  ends : Option 𝕜

/-- What Redis has for the key.  How many counters it has created so far, and when the last command
was sent, is kept to speak about it. -/
structure Server (𝕜 : Type) where
  now : 𝕜
  counter : Option (Counter 𝕜)
  generation : ℕ
  last : Option 𝕜

/-- Where a call is, with the generation of the counter that has counted it. -/
inductive Phase
  | start
  /-- The count is one; the EXPIRE is next. -/
  | created (generation : ℕ)
  /-- The count is returned. -/
  | admitted (generation count : ℕ)
  /-- `RateLimitError`. -/
  | limited
  /-- `None` is returned. -/
  | uncounted
  | stopped
  deriving DecidableEq

abbrev Conf (ι 𝕜 : Type) := Processes.Conf (Server 𝕜) Phase ι

inductive Event (ι 𝕜 : Type)
  | time (t : 𝕜)
  | call (i : ι) (reply : Reply)

section Commands

variable {𝕜 : Type} [Ring 𝕜] [LinearOrder 𝕜]

def Counter.isLive (c : Counter 𝕜) (now : 𝕜) : Bool := c.ends.all fun d => now < d

/-- The counter, if it has not expired. -/
def Server.live (s : Server 𝕜) : Option (Counter 𝕜) := s.counter.filter fun c => c.isLive s.now

/-- A command is sent. -/
def Server.touch (s : Server 𝕜) : Server 𝕜 := { s with last := some s.now }

/-- INCR, which creates a counter without a time to live if there is none. -/
def incr (s : Server 𝕜) : Server 𝕜 :=
  match s.live with
  | some c => { s with counter := some { c with count := c.count + 1 } }
  | none => { s with counter := some ⟨1, none⟩, generation := s.generation + 1 }

/-- The count that INCR answers. -/
def incrCount (s : Server 𝕜) : ℕ := s.live.elim 1 fun c => c.count + 1

/-- EXPIRE. -/
def expire (windowSec : ℤ) (s : Server 𝕜) : Server 𝕜 :=
  match s.live with
  | some c => { s with counter := some { c with ends := some (s.now + windowSec) } }
  | none => s

/-- What becomes of a call with a count. -/
def checked (rule : Rule) (generation count : ℕ) : Phase :=
  if rule.limit < count then .limited else .admitted generation count

/-- What becomes of a call without one. -/
def unanswered (reply : Reply) : Phase := if reply = .last then .stopped else .uncounted

/-- Where a call is after the INCR. -/
def counting (rule : Rule) (reply : Reply) (generation count : ℕ) : Phase :=
  if reply ≠ .answered then unanswered reply
  else if count = 1 then .created generation
  else checked rule generation count

/-- Where a call is after the EXPIRE. -/
def expiring (rule : Rule) (reply : Reply) (generation : ℕ) : Phase :=
  if reply ≠ .answered then unanswered reply else checked rule generation 1

/-- The next command of a call. -/
def next (rule : Rule) (reply : Reply) (s : Server 𝕜) : Phase → Server 𝕜 × Phase
  | .start =>
    if rule.limit ≤ 0 then (s, .uncounted)
    else if reply = .refused then (s.touch, .uncounted)
    else (incr s.touch, counting rule reply (incr s.touch).generation (incrCount s.touch))
  | .created generation =>
    if reply = .refused then (s.touch, .uncounted)
    else (expire rule.windowSec s.touch, expiring rule reply generation)
  | done => (s, done)

variable {ι : Type} [DecidableEq ι]

/-- What is so after an event.  Time does not go back. -/
def event (rule : Rule) (c : Conf ι 𝕜) : Event ι 𝕜 → Conf ι 𝕜
  | .time t => { c with shared := { c.shared with now := max c.shared.now t } }
  | .call i reply => Processes.advance (fun _ => next rule reply) c i

/-- No call has been made. -/
def idle (now : 𝕜) : Conf ι 𝕜 := ⟨⟨now, none, 0, none⟩, fun _ => .start⟩

/-! ## What a limit is for -/

/-- No counter has admitted more calls than the limit. -/
def AtMost (rule : Rule) (c : Conf ι 𝕜) : Prop :=
  ∀ generation, {i | ∃ count, c.loc i = .admitted generation count}.encard ≤ rule.limit.toNat

/-- The call is not through. -/
def Phase.goesOn : Phase → Bool
  | .created _ => true
  | _ => false

/-- No call is going on, and none has been for the window. -/
def Quiet (rule : Rule) (c : Conf ι 𝕜) : Prop :=
  (∀ i, (c.loc i).goesOn = false) ∧ ∀ t ∈ c.shared.last, t + rule.windowSec ≤ c.shared.now

instance [Fintype ι] (rule : Rule) (c : Conf ι 𝕜) : Decidable (Quiet rule c) :=
  inferInstanceAs (Decidable (_ ∧ _))

/-- After a quiet window the next call is not refused, whatever else happens before it is through. -/
def LetsGo (rule : Rule) (c : Conf ι 𝕜) : Prop :=
  Quiet rule c → ∀ i reply es, c.loc i = .start →
    (run (event rule) c (.call i reply :: es)).loc i ≠ .limited

/-- A call that creates the counter gets its answer, and the EXPIRE that follows is carried out. -/
def carried (reply : Reply) (s : Server 𝕜) : Phase → Prop
  | .start => s.live.isNone = true → reply = .answered ∨ reply = .refused
  | .created _ => reply ≠ .refused
  | _ => True

instance (reply : Reply) (s : Server 𝕜) : ∀ p, Decidable (carried reply s p)
  | .start => inferInstanceAs (Decidable (_ → _))
  | .created _ => inferInstanceAs (Decidable (_ ≠ _))
  | .admitted _ _ | .limited | .uncounted | .stopped => inferInstanceAs (Decidable True)

def Carried (c : Conf ι 𝕜) : Event ι 𝕜 → Prop
  | .time _ => True
  | .call i reply => carried reply c.shared (c.loc i)

instance (c : Conf ι 𝕜) : ∀ e, Decidable (Carried c e)
  | .time _ => inferInstanceAs (Decidable True)
  | .call i reply => inferInstanceAs (Decidable (carried reply c.shared (c.loc i)))

end Commands

/-! ## The commands -/

section Commands

variable {𝕜 : Type} {s t : Server 𝕜} {reply : Reply} {k : Counter 𝕜}

/-- The count that the counter has come to, expired or not. -/
def Server.count (s : Server 𝕜) : ℕ := s.counter.elim 0 Counter.count

/-- The two states have the same counter, or a call has been counted by it in between, or another
counter has been created. -/
def Later (s t : Server 𝕜) : Prop :=
  s.generation < t.generation ∨ s.generation = t.generation ∧ s.count ≤ t.count

theorem later_self (s : Server 𝕜) : Later s s := .inr ⟨rfl, le_rfl⟩

variable [LinearOrder 𝕜]

theorem isLive_eq_false {now : 𝕜} : k.isLive now = false ↔ ∃ d, k.ends = some d ∧ d ≤ now := by
  cases hk : k.ends with
  | none => simp [Counter.isLive, hk]
  | some d => simp [Counter.isLive, hk]

theorem live_eq_some :
    s.live = some k ↔ s.counter = some k ∧ ∀ d, k.ends = some d → s.now < d := by
  simp [Server.live, Counter.isLive, Option.filter_eq_some_iff, Option.all_eq_true]

theorem live_eq_none :
    s.live = none ↔ ∀ k, s.counter = some k → ∃ d, k.ends = some d ∧ d ≤ s.now := by
  simp [Server.live, Option.filter_eq_none_iff, isLive_eq_false]

/-- INCR counts with the counter that is there, or creates one. -/
theorem incr_cases (s : Server 𝕜) :
    (∃ k, s.live = some k ∧ incr s = { s with counter := some { k with count := k.count + 1 } } ∧
      incrCount s = s.count + 1) ∨
    (s.live = none ∧ incr s = { s with counter := some ⟨1, none⟩, generation := s.generation + 1 } ∧
      incrCount s = 1) := by
  cases hlive : s.live with
  | none => exact .inr ⟨rfl, by simp [incr, hlive], by simp [incrCount, hlive]⟩
  | some k =>
    refine .inl ⟨k, rfl, by simp [incr, hlive], ?_⟩
    simp [incrCount, hlive, Server.count, (live_eq_some.1 hlive).1]

theorem incr_count (s : Server 𝕜) : (incr s).count = incrCount s := by
  obtain ⟨k, hlive, hincr, hcount⟩ | ⟨_, hincr, hcount⟩ := incr_cases s
  · rw [hincr, hcount, Server.count, Server.count, (live_eq_some.1 hlive).1]
    rfl
  · rw [hincr, hcount]
    rfl

theorem one_le_incrCount (s : Server 𝕜) : 1 ≤ incrCount s := by
  obtain ⟨_, _, _, hcount⟩ | ⟨_, _, hcount⟩ := incr_cases s <;> omega

/-- No call has had the count that INCR answers. -/
theorem incr_fresh (s : Server 𝕜) :
    s.generation < (incr s).generation ∨
      s.generation = (incr s).generation ∧ s.count < incrCount s := by
  obtain ⟨k, _, hincr, hcount⟩ | ⟨_, hincr, _⟩ := incr_cases s
  · refine .inr ⟨by rw [hincr], ?_⟩
    omega
  · rw [hincr]
    exact .inl (Nat.lt_succ_self _)

theorem later_incr (s : Server 𝕜) : Later s (incr s) := by
  have hfresh := incr_fresh s
  have hcount := incr_count s
  unfold Later
  omega

theorem later_expire [Ring 𝕜] (windowSec : ℤ) (s : Server 𝕜) : Later s (expire windowSec s) := by
  unfold expire
  cases hlive : s.live with
  | none => exact later_self s
  | some k =>
    refine .inr ⟨rfl, ?_⟩
    rw [Server.count, (live_eq_some.1 hlive).1]
    rfl

end Commands

/-! ## At most the limit -/

/-- The generation of the counter that has counted a call, and the count. -/
def Phase.counted : Phase → Option (ℕ × ℕ)
  | .created generation => some (generation, 1)
  | .admitted generation count => some (generation, count)
  | _ => none

section Phases

variable {rule : Rule} {reply : Reply} {g n g' n' : ℕ}

theorem counted_checked : (checked rule g n).counted = none ∨
    (checked rule g n).counted = some (g, n) := by
  unfold checked
  split_ifs
  · exact .inl rfl
  · exact .inr rfl

theorem counted_unanswered : (unanswered reply).counted = none := by
  cases reply <;> rfl

/-- Whoever is admitted has a count within the limit. -/
theorem le_limit_of_checked (h : checked rule g n = .admitted g' n') : (n' : ℤ) ≤ rule.limit := by
  unfold checked at h
  split_ifs at h with hlimit
  cases h
  exact not_lt.1 hlimit

theorem counted_counting : (counting rule reply g n).counted = none ∨
    (counting rule reply g n).counted = some (g, n) := by
  unfold counting
  split_ifs with hreply hone
  · exact .inl counted_unanswered
  · rw [hone]
    exact .inr rfl
  · exact counted_checked

theorem counted_expiring : (expiring rule reply g).counted = none ∨
    (expiring rule reply g).counted = some (g, 1) := by
  unfold expiring
  split_ifs
  · exact .inl counted_unanswered
  · exact counted_checked

theorem unanswered_ne_admitted : unanswered reply ≠ .admitted g n := by
  cases reply <;> simp [unanswered]

theorem le_limit_of_counting (h : counting rule reply g n = .admitted g' n') :
    (n' : ℤ) ≤ rule.limit := by
  unfold counting at h
  split_ifs at h with hreply hone
  · exact absurd h unanswered_ne_admitted
  · exact le_limit_of_checked h

theorem le_limit_of_expiring (h : expiring rule reply g = .admitted g' n') :
    (n' : ℤ) ≤ rule.limit := by
  unfold expiring at h
  split_ifs at h
  · exact absurd h unanswered_ne_admitted
  · exact le_limit_of_checked h

end Phases

section Counts

variable {𝕜 : Type} {rule : Rule} {s t : Server 𝕜} {p q : Phase} {g n : ℕ}

/-- The count of a call is one that its counter has come to, and within the limit if the call was
admitted. -/
structure Counted (rule : Rule) (s : Server 𝕜) (p : Phase) : Prop where
  pos : ∀ g n, p.counted = some (g, n) → 1 ≤ n
  upTo : ∀ g n, p.counted = some (g, n) → g < s.generation ∨ g = s.generation ∧ n ≤ s.count
  within : ∀ g n, p = .admitted g n → (n : ℤ) ≤ rule.limit

/-- Two calls are not counted with one count of one counter. -/
def Apart (p q : Phase) : Prop := ∀ r, p.counted = some r → q.counted ≠ some r

theorem Counted.later (h : Counted rule s p) (hlater : Later s t) : Counted rule t p := by
  refine ⟨h.pos, fun g n hcounted => ?_, h.within⟩
  have hup := h.upTo g n hcounted
  unfold Later at hlater
  omega

theorem counted_of_none (h : q.counted = none) : Counted rule s q := by
  refine ⟨fun g n hq => ?_, fun g n hq => ?_, fun g n hq => ?_⟩
  · rw [h] at hq
    cases hq
  · rw [h] at hq
    cases hq
  · rw [hq] at h
    cases h

theorem counted_of_some (h : q.counted = none ∨ q.counted = some (g, n)) (hn : 1 ≤ n)
    (hup : g < s.generation ∨ g = s.generation ∧ n ≤ s.count)
    (hwithin : ∀ g n, q = .admitted g n → (n : ℤ) ≤ rule.limit) : Counted rule s q := by
  have hsame : ∀ g' n', q.counted = some (g', n') → g' = g ∧ n' = n := by
    intro g' n' hq
    rcases h with hnone | hsome
    · rw [hnone] at hq
      cases hq
    · rw [hsome] at hq
      cases hq
      exact ⟨rfl, rfl⟩
  refine ⟨fun g' n' hq => ?_, fun g' n' hq => ?_, hwithin⟩
  · rw [(hsame g' n' hq).2]
    exact hn
  · rw [(hsame g' n' hq).1, (hsame g' n' hq).2]
    exact hup

variable [Ring 𝕜] [LinearOrder 𝕜] {reply : Reply}

/-- What the next command of a call can be, and what it leaves. -/
inductive Command (rule : Rule) (reply : Reply) (s : Server 𝕜) : Phase → Server 𝕜 × Phase → Prop
  | unlimited (h : rule.limit ≤ 0) : Command rule reply s .start (s, .uncounted)
  | refused (p : Phase) (h : reply = .refused) : Command rule reply s p (s.touch, .uncounted)
  | counted (h : reply ≠ .refused) : Command rule reply s .start
      (incr s.touch, counting rule reply (incr s.touch).generation (incrCount s.touch))
  | expired (g : ℕ) (h : reply ≠ .refused) : Command rule reply s (.created g)
      (expire rule.windowSec s.touch, expiring rule reply g)
  | done (p : Phase) (hstart : p ≠ .start) (hcreated : ∀ g, p ≠ .created g) :
      Command rule reply s p (s, p)

theorem command_next (rule : Rule) (reply : Reply) (s : Server 𝕜) (p : Phase) :
    Command rule reply s p (next rule reply s p) := by
  cases p with
  | start =>
    by_cases hlimit : rule.limit ≤ 0
    · rw [next, if_pos hlimit]
      exact .unlimited hlimit
    · by_cases hreply : reply = .refused
      · rw [next, if_neg hlimit, if_pos hreply]
        exact .refused _ hreply
      · rw [next, if_neg hlimit, if_neg hreply]
        exact .counted hreply
  | created g =>
    by_cases hreply : reply = .refused
    · rw [next, if_pos hreply]
      exact .refused _ hreply
    · rw [next, if_neg hreply]
      exact .expired g hreply
  | _ => exact .done _ (by simp) (by simp)

/-- A command keeps what is so of its call, and counts it with a count that no call has had, or as
it was counted before. -/
theorem Command.counts {r : Server 𝕜 × Phase} (hcommand : Command rule reply s p r)
    (h : Counted rule s p) :
    Later s r.1 ∧ Counted rule r.1 r.2 ∧ ∀ g n, r.2.counted = some (g, n) →
      p.counted = some (g, n) ∨ s.generation < g ∨ s.generation = g ∧ s.count < n := by
  have htouch : Later s s.touch := later_self s
  have hnone : ∀ g n, ¬ Phase.uncounted.counted = some (g, n) := by simp [Phase.counted]
  cases hcommand with
  | unlimited => exact ⟨later_self s, counted_of_none rfl, fun g n hr => absurd hr (hnone g n)⟩
  | refused => exact ⟨htouch, counted_of_none rfl, fun g n hr => absurd hr (hnone g n)⟩
  | counted =>
    refine ⟨later_incr s.touch, ?_, fun g n hr => ?_⟩
    · exact counted_of_some counted_counting (one_le_incrCount _) (.inr ⟨rfl, (incr_count _).ge⟩)
        fun _ _ => le_limit_of_counting
    · rcases counted_counting.symm with hsome | hnone
      · rw [hsome] at hr
        cases hr
        exact .inr (incr_fresh s.touch)
      · rw [hnone] at hr
        cases hr
  | expired g =>
    have hlater : Later s (expire rule.windowSec s.touch) := later_expire _ s.touch
    refine ⟨hlater, ?_, fun g' n hr => .inl ?_⟩
    · exact counted_of_some counted_expiring le_rfl ((h.later hlater).upTo g 1 rfl)
        fun _ _ => le_limit_of_expiring
    · rcases counted_expiring.symm with hsome | hnone
      · rw [hsome] at hr
        exact hr
      · rw [hnone] at hr
        cases hr
  | done => exact ⟨later_self s, h, fun g n hr => .inl hr⟩

variable {ι : Type}

/-- The calls counted, each with a count of its own. -/
abbrev Tallied (rule : Rule) (c : Conf ι 𝕜) : Prop :=
  Processes.Annotated (fun _ => True) (fun _ => Counted rule) (fun _ _ => Apart) c

variable [DecidableEq ι] {c : Conf ι 𝕜}

theorem Tallied.event (h : Tallied rule c) (e : Event ι 𝕜) : Tallied rule (event rule c e) := by
  cases e with
  | time t => exact ⟨trivial, fun i => (h.own i).later (later_self _), h.pair⟩
  | call i reply =>
    obtain ⟨hlater, hcounted, hold⟩ :=
      (command_next rule reply c.shared (c.loc i)).counts (h.own i)
    show Tallied rule (Processes.advance (fun _ => next rule reply) c i)
    refine h.advance rfl trivial hcounted (fun j _ => (h.own j).later hlater) fun j hj => ?_
    -- A count that is new has not come up for another call.
    have hapart : ∀ g n, (next rule reply c.shared (c.loc i)).2.counted = some (g, n) →
        (c.loc j).counted ≠ some (g, n) := by
      intro g n hr hj'
      rcases hold g n hr with hsame | hnew
      · exact h.pair i j hj.symm (g, n) hsame hj'
      · have hup := (h.own j).upTo g n hj'
        omega
    exact ⟨fun r => hapart r.1 r.2, fun r hr hr' => hapart r.1 r.2 hr' hr⟩

omit [DecidableEq ι] [Ring 𝕜] [LinearOrder 𝕜] in
theorem Tallied.atMost (h : Tallied rule c) : AtMost rule c := by
  intro g
  have hcard : (↑(Finset.Icc 1 rule.limit.toNat) : Set ℕ).encard = rule.limit.toNat := by
    rw [Set.encard_coe_eq_coe_finsetCard, Nat.card_Icc, Nat.add_sub_cancel]
  rw [← hcard]
  refine Set.encard_le_encard_of_injOn (f := fun i => (c.loc i).counted.elim 0 Prod.snd) ?_ ?_
  · rintro i ⟨n, hi⟩
    have hpos := (h.own i).pos g n (by rw [hi]; rfl)
    have hlimit := (h.own i).within g n hi
    simp only [hi, Phase.counted, Option.elim, Finset.coe_Icc, Set.mem_Icc]
    omega
  · rintro i ⟨n, hi⟩ j ⟨m, hj⟩ heq
    simp only [hi, hj, Phase.counted, Option.elim] at heq
    by_contra hne
    exact h.pair i j hne (g, n) (by rw [hi]; rfl) (by rw [hj, heq]; rfl)

end Counts

/-! ## What lets go -/

section Expiry

variable {𝕜 : Type} [Ring 𝕜] [LinearOrder 𝕜] {rule : Rule} {s t : Server 𝕜} {p : Phase}
  {reply : Reply} {r : Server 𝕜 × Phase}

/-- The counter has expired, or will before a window after the last command is over. -/
def Ends (rule : Rule) (s : Server 𝕜) : Prop :=
  ∀ k, s.counter = some k →
    ∃ d, k.ends = some d ∧ (d ≤ s.now ∨ ∃ t, s.last = some t ∧ d ≤ t + rule.windowSec)

theorem ends_of_expired (h : s.live = none) : Ends rule s := by
  intro k hk
  obtain ⟨d, hd, hle⟩ := live_eq_none.1 h k hk
  exact ⟨d, hd, .inl hle⟩

/-- Ends, whatever the count has become. -/
theorem Ends.recounted (h : Ends rule s) {k : Counter 𝕜} (hk : s.counter = some k) (count : ℕ) :
    Ends rule { s with counter := some { k with count := count } } := by
  intro k' hk'
  cases hk'
  exact h k hk

theorem ends_expire (s : Server 𝕜) : Ends rule (expire rule.windowSec s.touch) := by
  unfold expire
  cases hlive : s.touch.live with
  | none => exact ends_of_expired hlive
  | some k =>
    intro k' hk'
    cases hk'
    exact ⟨_, rfl, .inr ⟨s.now, rfl, le_rfl⟩⟩

theorem Command.now (h : Command rule reply s p r) : r.1.now = s.now := by
  cases h with
  | counted => obtain ⟨_, _, hincr, _⟩ | ⟨_, hincr, _⟩ := incr_cases s.touch <;> rw [hincr] <;> rfl
  | expired =>
    show (expire rule.windowSec s.touch).now = s.now
    unfold expire
    cases s.touch.live <;> rfl
  | _ => rfl

theorem Command.last (h : Command rule reply s p r) : r.1.last = s.last ∨ r.1.last = some s.now := by
  cases h with
  | counted =>
    right
    obtain ⟨_, _, hincr, _⟩ | ⟨_, hincr, _⟩ := incr_cases s.touch <;> rw [hincr] <;> rfl
  | expired =>
    right
    show (expire rule.windowSec s.touch).last = some s.now
    unfold expire
    cases s.touch.live <;> rfl
  | refused => exact .inr rfl
  | _ => exact .inl rfl

/-- A call that has begun is not refused any more when its counter is new. -/
theorem Command.spared (h : Command rule reply s p r) (hlimit : 1 ≤ rule.limit)
    (hstart : p ≠ .start)
    (hp : p ≠ .limited) : r.2 ≠ .start ∧ r.2 ≠ .limited := by
  cases h with
  | unlimited => exact absurd rfl hstart
  | counted => exact absurd rfl hstart
  | refused => exact ⟨by simp, by simp⟩
  | expired g =>
    have hnot : ¬ rule.limit < 1 := by omega
    cases reply <;> simp [expiring, unanswered, checked, hnot]
  | done => exact ⟨hstart, hp⟩

/-- A call that finds no counter begins. -/
theorem Command.begins (h : Command rule reply s .start r) (hlive : s.live = none) :
    r.2 ≠ .start ∧ r.2 ≠ .limited := by
  cases h with
  | unlimited => exact ⟨by simp, by simp⟩
  | refused => exact ⟨by simp, by simp⟩
  | counted =>
    have hone : incrCount s.touch = 1 := by
      obtain ⟨k, hsome, _⟩ | ⟨_, _, hcount⟩ := incr_cases s.touch
      · have hsome' : s.live = some k := hsome
        rw [hlive] at hsome'
        cases hsome'
      · exact hcount
    cases reply <;> simp [counting, unanswered, hone]
  | done _ hstart => exact absurd rfl hstart

variable [IsOrderedRing 𝕜]

theorem Ends.touch (h : Ends rule s) (hpast : ∀ t, s.last = some t → t ≤ s.now) :
    Ends rule s.touch := by
  intro k hk
  obtain ⟨d, hd, hle | ⟨t, ht, hle⟩⟩ := h k hk
  · exact ⟨d, hd, .inl hle⟩
  · exact ⟨d, hd, .inr ⟨s.now, rfl, hle.trans (add_le_add_left (hpast t ht) _)⟩⟩

end Expiry

section Runs

variable {ι 𝕜 : Type} [Ring 𝕜] [LinearOrder 𝕜] {rule : Rule} {c : Conf ι 𝕜} {i : ι}

/-- The last command is not in the future, and the counter ends or waits for its EXPIRE. -/
structure Kept (rule : Rule) (c : Conf ι 𝕜) : Prop where
  past : ∀ t, c.shared.last = some t → t ≤ c.shared.now
  ends : Ends rule c.shared ∨ ∃ i g, c.loc i = .created g

theorem kept_idle (rule : Rule) (now : 𝕜) : Kept rule (idle now : Conf ι 𝕜) := by
  refine ⟨fun t ht => ?_, .inl fun k hk => ?_⟩
  · cases ht
  · cases hk

theorem Kept.live_eq_none (h : Kept rule c) (hquiet : Quiet rule c) : c.shared.live = none := by
  refine RateLimit.live_eq_none.2 fun k hk => ?_
  rcases h.ends with hends | ⟨i, g, hi⟩
  · obtain ⟨d, hd, hnow | ⟨t, ht, hle⟩⟩ := hends k hk
    · exact ⟨d, hd, hnow⟩
    · exact ⟨d, hd, hle.trans (hquiet.2 t ht)⟩
  · have hthrough := hquiet.1 i
    rw [hi] at hthrough
    cases hthrough

/-- A carried command leaves a counter that ends or waits for its EXPIRE. -/
theorem Kept.command [IsOrderedRing 𝕜] (h : Kept rule c) {reply : Reply} {r : Server 𝕜 × Phase}
    (hcommand : Command rule reply c.shared (c.loc i) r)
    (hok : carried reply c.shared (c.loc i)) :
    Ends rule r.1 ∨ (∃ g, r.2 = .created g) ∨ ∃ j g, j ≠ i ∧ c.loc j = .created g := by
  have hother : (∀ g, c.loc i ≠ .created g) → (Ends rule c.shared → Ends rule r.1) →
      Ends rule r.1 ∨ (∃ g, r.2 = .created g) ∨ ∃ j g, j ≠ i ∧ c.loc j = .created g := by
    intro hi hends
    rcases h.ends with hkeep | ⟨j, g, hj⟩
    · exact .inl (hends hkeep)
    · exact .inr (.inr ⟨j, g, fun heq => hi g (heq ▸ hj), hj⟩)
  generalize c.loc i = p at hcommand hok hother
  cases hcommand with
  | unlimited => exact hother (by simp) fun hends => hends
  | refused _ hreply =>
    refine hother ?_ fun hends => hends.touch h.past
    rintro g rfl
    exact hok hreply
  | counted hreply =>
    obtain ⟨k, hlive, hincr, _⟩ | ⟨hlive, hincr, hcount⟩ := incr_cases c.shared.touch
    · refine hother (by simp) fun hends => ?_
      rw [hincr]
      exact (hends.touch h.past).recounted (RateLimit.live_eq_some.1 hlive).1 _
    · have hnone : c.shared.live.isNone = true := Option.isNone_iff_eq_none.2 hlive
      obtain rfl : reply = .answered := (hok hnone).resolve_right hreply
      refine .inr (.inl ⟨(incr c.shared.touch).generation, ?_⟩)
      simp [counting, hcount]
  | expired => exact .inl (ends_expire _)
  | done _ _ hcreated => exact hother hcreated fun hends => hends

variable [DecidableEq ι] {e : Event ι 𝕜}

theorem event_loc_self (rule : Rule) (c : Conf ι 𝕜) (i : ι) (reply : Reply) :
    (event rule c (.call i reply)).loc i = (next rule reply c.shared (c.loc i)).2 := by
  show (Processes.advance (fun _ => next rule reply) c i).loc i = _
  rw [Processes.advance_loc_self]

theorem event_loc_of_ne {j : ι} (reply : Reply) (h : j ≠ i) :
    (event rule c (.call i reply)).loc j = c.loc j := by
  show (Processes.advance (fun _ => next rule reply) c i).loc j = _
  rw [Processes.advance_loc_of_ne c h]

theorem Kept.event [IsOrderedRing 𝕜] (h : Kept rule c) (hok : Carried c e) :
    Kept rule (event rule c e) := by
  cases e with
  | time t =>
    refine ⟨fun u hu => (h.past u hu).trans (le_max_left _ _), h.ends.imp_left fun hends k hk => ?_⟩
    obtain ⟨d, hd, hle | hlast⟩ := hends k hk
    · exact ⟨d, hd, .inl (hle.trans (le_max_left _ _))⟩
    · exact ⟨d, hd, .inr hlast⟩
  | call i reply =>
    have hcommand := command_next rule reply c.shared (c.loc i)
    have hnow : (RateLimit.event rule c (.call i reply)).shared.now = c.shared.now := hcommand.now
    refine ⟨fun t ht => ?_, ?_⟩
    · rw [hnow]
      have hlast : (RateLimit.event rule c (.call i reply)).shared.last = c.shared.last ∨
          (RateLimit.event rule c (.call i reply)).shared.last = some c.shared.now := hcommand.last
      rcases hlast with hlast | hlast
      · exact h.past t (hlast ▸ ht)
      · rw [hlast] at ht
        exact (Option.some.inj ht).ge
    · rcases h.command hcommand hok with hends | ⟨g, hg⟩ | ⟨j, g, hj, hg⟩
      · exact .inl hends
      · exact .inr ⟨i, g, (event_loc_self rule c i reply).trans hg⟩
      · exact .inr ⟨j, g, (event_loc_of_ne reply hj).trans hg⟩

/-- A call that has begun with a new counter is not refused, whatever happens before it is
through. -/
theorem never_limited (hlimit : 1 ≤ rule.limit) (h : c.loc i ≠ .start ∧ c.loc i ≠ .limited)
    (es : List (Event ι 𝕜)) :
    (run (RateLimit.event rule) c es).loc i ≠ .start ∧
      (run (RateLimit.event rule) c es).loc i ≠ .limited := by
  refine run_induction (I := fun c : Conf ι 𝕜 => c.loc i ≠ .start ∧ c.loc i ≠ .limited)
    (fun c e hc => ?_) h es
  cases e with
  | time t => exact hc
  | call j reply =>
    by_cases hj : i = j
    · subst hj
      rw [event_loc_self]
      exact (command_next rule reply c.shared (c.loc i)).spared hlimit hc.1 hc.2
    · rw [event_loc_of_ne reply hj]
      exact hc

theorem Kept.letsGo (h : Kept rule c) (hlimit : 1 ≤ rule.limit) : LetsGo rule c := by
  intro hquiet i reply es hstart
  have hcommand := command_next rule reply c.shared (c.loc i)
  rw [hstart] at hcommand
  refine (never_limited hlimit ?_ es).2
  rw [event_loc_self, hstart]
  exact hcommand.begins (h.live_eq_none hquiet)

/-- A counter never admits more calls than the limit; and where each counter gets its time to live,
a call after a window without calls is not refused. -/
theorem limits_and_lets_go [IsOrderedRing 𝕜] (rule : Rule) (hlimit : 1 ≤ rule.limit) (now : 𝕜)
    (es : List (Event ι 𝕜)) :
    Throughout (RateLimit.event rule) (AtMost rule) (idle now) es ∧
      (Stepwise (RateLimit.event rule) Carried (idle now) es →
        Throughout (RateLimit.event rule) (LetsGo rule) (idle now) es) := by
  constructor
  · intro pre _
    have hidle : Tallied rule (idle now : Conf ι 𝕜) := by
      refine ⟨trivial, fun i => counted_of_none rfl, fun i j _ r hr => ?_⟩
      cases hr
    exact (run_induction (fun c e hc => hc.event e) hidle pre).atMost
  · intro hok pre hpre
    have hkept := throughout_of_stepwise (fun _ _ => Kept.event) (kept_idle rule now) hok
    exact (hkept pre hpre).letsGo hlimit

/-- The counter has no time to live and has reached the limit, and no EXPIRE is going to come. -/
def Stuck (rule : Rule) (c : Conf ι 𝕜) : Prop :=
  (∃ n : ℕ, c.shared.counter = some ⟨n, none⟩ ∧ rule.limit ≤ n) ∧ ∀ i, (c.loc i).goesOn = false

/-- A full counter without a time to live refuses every call that Redis answers, and is full
afterwards. -/
theorem Command.stuck {s : Server 𝕜} {p : Phase} {reply : Reply} {r : Server 𝕜 × Phase}
    (h : Command rule reply s p r) (hlimit : 1 ≤ rule.limit) {n : ℕ}
    (hcounter : s.counter = some ⟨n, none⟩) (hn : rule.limit ≤ n) (hp : p.goesOn = false) :
    (∃ m : ℕ, r.1.counter = some ⟨m, none⟩ ∧ rule.limit ≤ m) ∧ r.2.goesOn = false ∧
      (p = .start → reply = .answered → r.2 = .limited) := by
  cases h with
  | unlimited hopen => exact absurd hlimit (by omega)
  | refused _ hreply => exact ⟨⟨n, hcounter, hn⟩, rfl, fun _ hans => by simp [hreply] at hans⟩
  | counted =>
    have hlive : s.touch.live = some ⟨n, none⟩ := live_eq_some.2 ⟨hcounter, by simp⟩
    have hcount : incrCount s.touch = n + 1 := by simp [incrCount, hlive]
    have hone : n + 1 ≠ 1 := by omega
    have hover : rule.limit < ((n + 1 : ℕ) : ℤ) := by omega
    refine ⟨⟨n + 1, by simp [incr, hlive], hover.le⟩, ?_, fun _ hans => ?_⟩
    · rw [hcount]
      cases reply <;> simp only [counting, unanswered, checked, hone, hover, if_true, if_false] <;> rfl
    · rw [hcount, hans]
      simp only [counting, checked, hone, hover, if_true, if_false]
      rfl
  | expired => cases hp
  | done _ hstart => exact ⟨⟨n, hcounter, hn⟩, hp, fun h => absurd h hstart⟩

theorem Stuck.event (h : Stuck rule c) (hlimit : 1 ≤ rule.limit) (e : Event ι 𝕜) :
    Stuck rule (RateLimit.event rule c e) := by
  cases e with
  | time t => exact h
  | call i reply =>
    obtain ⟨⟨n, hcounter, hn⟩, hthrough⟩ := h
    obtain ⟨hfull, hi, _⟩ :=
      (command_next rule reply c.shared (c.loc i)).stuck hlimit hcounter hn (hthrough i)
    refine ⟨hfull, fun j => ?_⟩
    by_cases hj : j = i
    · rw [hj, event_loc_self]
      exact hi
    · rw [event_loc_of_ne reply hj]
      exact hthrough j

/-- From then on every call that Redis answers is refused. -/
theorem stuck_forever (h : Stuck rule c) (hlimit : 1 ≤ rule.limit) (es : List (Event ι 𝕜))
    (hi : (run (RateLimit.event rule) c es).loc i = .start) :
    (run (RateLimit.event rule) c (es ++ [.call i .answered])).loc i = .limited := by
  obtain ⟨⟨n, hcounter, hn⟩, hthrough⟩ := run_induction (fun _ e hc => hc.event hlimit e) h es
  rw [run_concat, event_loc_self]
  exact ((command_next rule .answered _ _).stuck hlimit hcounter hn (hthrough i)).2.2 hi rfl

end Runs

/-! ## Codes for one phone -/

/-- A code is asked for, and another one after the window. -/
def twoCodes : List (Event (Fin 2) ℚ) :=
  [.call 0 .answered, .call 0 .answered, .time 600, .call 1 .answered, .call 1 .answered]

theorem twoCodes_sent :
    Throughout (event otpRule) (AtMost otpRule) (idle 0) twoCodes ∧
      Throughout (event otpRule) (LetsGo otpRule) (idle 0) twoCodes :=
  (limits_and_lets_go otpRule (by decide) 0 twoCodes).imp_right fun h => h (by decide +kernel)

/-- Five codes are asked for; the EXPIRE after the first is refused. -/
def noExpiry : List (Event (Fin 6) ℚ) :=
  [.call 0 .answered, .call 0 .refused, .call 1 .answered, .call 2 .answered, .call 3 .answered,
    .call 4 .answered, .time 600]

/-- Ten minutes later there is still no other code for the phone. -/
theorem noExpiry_refused : ¬ Throughout (event otpRule) (LetsGo otpRule) (idle 0) noExpiry := by
  intro h
  have hquiet : Quiet otpRule (run (event otpRule) (idle 0) noExpiry) := by decide +kernel
  exact h.final hquiet 5 .answered [] rfl (by decide +kernel)

end RateLimit

end Redis

end SweetCrust

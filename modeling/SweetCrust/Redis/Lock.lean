import SweetCrust.Lib.Expiring
import SweetCrust.Lib.Processes

/-!
# The Redis lock

`redis_lock` sets a key with a token of its own and a time to live, if the key is free.  After its
block it reads the key, and deletes it with a second command if it has found its token there.  In
between the key may expire, and another client may set it.

* `next` — one command of a client, or a step of it without a command.
* `event` — a client's step, or time that passes.
* `Exclusive`, `OwnDelete` — what a lock is for.
* `excludes_iff` — it does that, for clients that leave their blocks in time, exactly if each
  delete is carried out in time too, or finds nothing.
-/

namespace SweetCrust

open Runs

namespace Redis

/-- What becomes of a command. -/
inductive Reply
  | answered
  /-- It is carried out, and the client has an exception. -/
  | lost
  /-- It is carried out, and is the last thing that the client's process does. -/
  | last
  /-- It is not carried out, and the client has an exception. -/
  | refused
  deriving DecidableEq

namespace Lock

/-- The arguments of `redis_lock`. -/
structure Use where
  name : String
  ttlSeconds : ℤ := 30

def Use.key (use : Use) : String := "lock:" ++ use.name

/-- Where a client is in `redis_lock`.  `ends` is when the key that it has set expires, which the
client does not look at. -/
inductive Phase (𝕜 : Type)
  | start
  /-- In the block, with `acquired` true. -/
  | inside (ends : 𝕜)
  /-- In the block, with `acquired` false. -/
  | denied
  /-- The release has started. -/
  | releasing (ends : 𝕜)
  /-- The client has read its own token. -/
  | matched (ends : 𝕜)
  | left

/-- The time, and the tokens under their keys.  A client's token is unlike all others', so that it
stands for the client. -/
structure Server (ι 𝕜 : Type) where
  now : 𝕜
  keys : Expiring String ι 𝕜

/-- The server, and where each client is. -/
abbrev Conf (ι 𝕜 : Type) := Processes.Conf (Server ι 𝕜) (Phase 𝕜) ι

inductive Event (ι 𝕜 : Type)
  | time (t : 𝕜)
  | client (i : ι) (reply : Reply)

variable {ι 𝕜 : Type}

/-- Where a client is after the SET. -/
def entered (reply : Reply) (isSet : Bool) (ends : 𝕜) : Phase 𝕜 :=
  match reply with
  | .answered => if isSet then .inside ends else .denied
  | .last => .left
  | _ => .denied

/-- When the key expires, of a client that is in the block with `acquired` true. -/
def Phase.inside? : Phase 𝕜 → Option 𝕜
  | .inside ends => some ends
  | _ => none

/-- When the key expires, of a client that has not finished its release. -/
def Phase.ends : Phase 𝕜 → Option 𝕜
  | .inside ends => some ends
  | .releasing ends => some ends
  | .matched ends => some ends
  | _ => none

section Commands

variable [DecidableEq ι] [Ring 𝕜] [LinearOrder 𝕜]

/-- The next step of the client `i`, and what becomes of its command if it sends one. -/
def next (use : Use) (i : ι) (reply : Reply) (s : Server ι 𝕜) : Phase 𝕜 → Server ι 𝕜 × Phase 𝕜
  | .start =>
    let ends := s.now + use.ttlSeconds
    -- Redis refuses a time to live that is not positive.
    if reply = .refused ∨ use.ttlSeconds ≤ 0 then (s, entered reply false ends)
    else
      match s.keys.get? s.now use.key with
      | none => ({ s with keys := s.keys.set use.key i ends }, entered reply true ends)
      | some _ => (s, entered reply false ends)
  | .inside ends => (s, .releasing ends)
  | .denied => (s, .left)
  | .releasing ends =>
    if reply = .answered ∧ s.keys.get? s.now use.key = some i then (s, .matched ends)
    else (s, .left)
  | .matched _ =>
    if reply = .refused then (s, .left)
    else ({ s with keys := s.keys.delete use.key }, .left)
  | .left => (s, .left)

/-- What is so after an event.  Time does not go back. -/
def event (use : ι → Use) (c : Conf ι 𝕜) : Event ι 𝕜 → Conf ι 𝕜
  | .time t => { c with shared := { c.shared with now := max c.shared.now t } }
  | .client i reply => Processes.advance (fun j => next (use j) j reply) c i

end Commands

/-- No client has started, and no key is set. -/
def start (now : 𝕜) : Conf ι 𝕜 := ⟨⟨now, Expiring.empty⟩, fun _ => .start⟩

/-! ## What a lock is for -/

/-- No two clients are in the block of one name with `acquired` true. -/
def Exclusive (use : ι → Use) (c : Conf ι 𝕜) : Prop :=
  ∀ i j, (c.loc i).inside?.isSome = true → (c.loc j).inside?.isSome = true →
    (use i).name = (use j).name → i = j

/-- The client whose delete is carried out, and when the key that it has set expires. -/
def deletes (c : Conf ι 𝕜) : Event ι 𝕜 → Option (ι × 𝕜)
  | .time _ => none
  | .client i reply =>
    match c.loc i with
    | .matched ends => if reply = .refused then none else some (i, ends)
    | _ => none

section Conditions

variable [LinearOrder 𝕜]

/-- A delete finds no token of another client. -/
def OwnDelete (use : ι → Use) (c : Conf ι 𝕜) (e : Event ι 𝕜) : Prop :=
  ∀ r ∈ deletes c e, ∀ j ∈ c.shared.keys.get? c.shared.now (use r.1).key, j = r.1

/-- No client that is in the block with `acquired` true lets its time to live elapse. -/
def InTime (c : Conf ι 𝕜) : Event ι 𝕜 → Prop
  | .time t => ∀ i, ∀ ends ∈ (c.loc i).inside?, max c.shared.now t < ends
  | .client _ _ => True

/-- A delete is carried out before the client's time to live has elapsed, or when the key is
free. -/
def Prompt (use : ι → Use) (c : Conf ι 𝕜) (e : Event ι 𝕜) : Prop :=
  ∀ r ∈ deletes c e, c.shared.now < r.2 ∨ c.shared.keys.get? c.shared.now (use r.1).key = none

end Conditions

section Decide

variable [DecidableEq ι] [LinearOrder 𝕜] (use : ι → Use) (c : Conf ι 𝕜) (e : Event ι 𝕜)

instance [Fintype ι] : Decidable (Exclusive use c) := inferInstanceAs (Decidable (∀ _ _, _))

instance [Fintype ι] : Decidable (InTime c e) :=
  match e with
  | .time t => inferInstanceAs (Decidable (∀ i, ∀ ends ∈ (c.loc i).inside?, max c.shared.now t < ends))
  | .client _ _ => inferInstanceAs (Decidable True)

instance : Decidable (OwnDelete use c e) :=
  inferInstanceAs (Decidable (∀ r ∈ deletes c e, ∀ j ∈ _, j = r.1))

instance : Decidable (Prompt use c e) := inferInstanceAs (Decidable (∀ r ∈ deletes c e, _))

end Decide

/-! ## One step -/

/-- A phase that follows without a key being set: no block is entered, and the time at which the
key expires is the same if it still matters. -/
structure Follows (p q : Phase 𝕜) : Prop where
  started : q ≠ .start
  inside : ∀ ends, q.inside? = some ends → p.inside? = some ends
  ends : ∀ ends, q.ends = some ends → p.ends = some ends

section Phases

variable {p q : Phase 𝕜} {ends : 𝕜}

theorem ends_of_inside? (h : p.inside? = some ends) : p.ends = some ends := by
  cases p with
  | inside => exact h
  | _ => cases h

/-- A phase without a key of its own follows on every other. -/
theorem follows_of_ends (h : q.ends = none) (hq : q ≠ .start) : Follows p q := by
  refine ⟨hq, fun ends hin => ?_, fun ends hends => ?_⟩
  · rw [ends_of_inside? hin] at h
    cases h
  · rw [h] at hends
    cases hends

theorem entered_ne_start (reply : Reply) (isSet : Bool) (ends : 𝕜) :
    entered reply isSet ends ≠ .start := by
  cases reply <;> cases isSet <;> simp [entered]

theorem ends_entered (reply : Reply) (ends : 𝕜) : (entered reply false ends).ends = none := by
  cases reply <;> rfl

/-- A client whose key is set is in the block, or will not be. -/
theorem entered_true (reply : Reply) (ends : 𝕜) :
    entered reply true ends = .inside ends ∨ (entered reply true ends).ends = none := by
  cases reply with
  | answered => exact .inl rfl
  | _ => exact .inr rfl

end Phases

section Steps

variable [DecidableEq ι] [Ring 𝕜] [LinearOrder 𝕜]

/-- What a step of a client can be. -/
theorem next_cases (u : Use) (i : ι) (reply : Reply) (s : Server ι 𝕜) (p : Phase 𝕜) :
    (∃ q, next u i reply s p = (s, q) ∧ Follows p q) ∨
    (p = .start ∧ 0 < u.ttlSeconds ∧ s.keys.get? s.now u.key = none ∧
      next u i reply s p = ({ s with keys := s.keys.set u.key i (s.now + u.ttlSeconds) },
        entered reply true (s.now + u.ttlSeconds))) ∨
    (∃ ends, p = .matched ends ∧ reply ≠ .refused ∧
      next u i reply s p = ({ s with keys := s.keys.delete u.key }, .left)) := by
  have hdone : ∀ p : Phase 𝕜, Follows p .left := fun p => follows_of_ends rfl (by simp)
  cases p with
  | start =>
    have hdenied : Follows .start (entered reply false (s.now + u.ttlSeconds)) :=
      follows_of_ends (ends_entered _ _) (entered_ne_start _ _ _)
    by_cases hno : reply = .refused ∨ u.ttlSeconds ≤ 0
    · exact .inl ⟨_, if_pos hno, hdenied⟩
    · cases hget : s.keys.get? s.now u.key with
      | some j =>
        refine .inl ⟨_, ?_, hdenied⟩
        unfold next
        simp only [if_neg hno, hget]
      | none =>
        refine .inr (.inl ⟨rfl, not_le.1 fun hle => hno (.inr hle), rfl, ?_⟩)
        unfold next
        simp only [if_neg hno, hget]
  | inside ends => exact .inl ⟨_, rfl, by simp, by simp [Phase.inside?], fun _ h => h⟩
  | denied => exact .inl ⟨_, rfl, hdone _⟩
  | releasing ends =>
    by_cases hown : reply = .answered ∧ s.keys.get? s.now u.key = some i
    · exact .inl ⟨_, if_pos hown, by simp, by simp [Phase.inside?], fun _ h => h⟩
    · exact .inl ⟨_, if_neg hown, hdone _⟩
  | matched ends =>
    by_cases hrefused : reply = .refused
    · exact .inl ⟨_, if_pos hrefused, hdone _⟩
    · exact .inr (.inr ⟨ends, rfl, hrefused, if_neg hrefused⟩)
  | left => exact .inl ⟨_, rfl, hdone _⟩

end Steps

/-! ## What holds while the clients are in time -/

/-- A client that is in the block has time left; a client whose time is not up has its token under
its key; and a token is under its client's key, for as long as the client has set it for. -/
structure Orderly [LinearOrder 𝕜] (use : ι → Use) (c : Conf ι 𝕜) : Prop where
  inTime : ∀ i ends, (c.loc i).inside? = some ends → c.shared.now < ends
  held : ∀ i ends, (c.loc i).ends = some ends → c.shared.now < ends →
    c.shared.keys (use i).key = some (i, ends)
  own : ∀ k i d, c.shared.keys k = some (i, d) →
    k = (use i).key ∧ c.loc i ≠ .start ∧ ∀ ends, (c.loc i).ends = some ends → d = ends

theorem deletes_eq_some {c : Conf ι 𝕜} {e : Event ι 𝕜} {i : ι} {ends : 𝕜} :
    deletes c e = some (i, ends) ↔
      ∃ reply, e = .client i reply ∧ reply ≠ .refused ∧ c.loc i = .matched ends := by
  constructor
  · intro h
    cases e with
    | time t => cases h
    | client j reply =>
      unfold deletes at h
      cases hp : c.loc j with
      | matched d =>
        simp only [hp] at h
        by_cases hrefused : reply = .refused
        · rw [if_pos hrefused] at h
          cases h
        · rw [if_neg hrefused] at h
          cases h
          exact ⟨reply, rfl, hrefused, hp⟩
      | _ => simp [hp] at h
  · rintro ⟨reply, rfl, hrefused, hp⟩
    simp [deletes, hp, hrefused]

section Invariant

variable [LinearOrder 𝕜] {use : ι → Use} {c c' : Conf ι 𝕜} {i : ι} {e : Event ι 𝕜} {q : Phase 𝕜}
  {ends : 𝕜}

theorem orderly_start (use : ι → Use) (now : 𝕜) : Orderly use (start now : Conf ι 𝕜) := by
  refine ⟨fun i ends h => ?_, fun i ends h => ?_, fun k i d h => ?_⟩
  · cases h
  · cases h
  · cases h

theorem Orderly.exclusive (h : Orderly use c) : Exclusive use c := by
  have hkey : ∀ i, (c.loc i).inside?.isSome = true →
      ∃ ends, c.shared.keys (use i).key = some (i, ends) := by
    intro i hi
    obtain ⟨ends, hends⟩ := Option.isSome_iff_exists.1 hi
    exact ⟨ends, h.held i ends (ends_of_inside? hends) (h.inTime i ends hends)⟩
  intro i j hi hj hname
  obtain ⟨d, hd⟩ := hkey i hi
  obtain ⟨d', hd'⟩ := hkey j hj
  rw [Use.key, ← hname, ← Use.key, hd, Option.some.injEq, Prod.mk.injEq] at hd'
  exact hd'.1

/-- A client that deletes in time finds its own token. -/
theorem Orderly.prompt_iff (h : Orderly use c) : Prompt use c e ↔ OwnDelete use c e := by
  constructor
  · rintro hprompt ⟨i, ends⟩ hdelete j hj
    obtain ⟨_, rfl, _, hp⟩ := deletes_eq_some.1 hdelete
    rcases hprompt _ hdelete with hlt | hnone
    · have hkey := h.held i ends (by rw [hp]; rfl) hlt
      obtain ⟨d, hd, _⟩ := Expiring.get?_eq_some.1 hj
      rw [hkey, Option.some.injEq, Prod.mk.injEq] at hd
      exact hd.1.symm
    · rw [Option.mem_def, hnone] at hj
      cases hj
  · rintro hown ⟨i, ends⟩ hdelete
    obtain ⟨_, rfl, _, hp⟩ := deletes_eq_some.1 hdelete
    cases hget : c.shared.keys.get? c.shared.now (use i).key with
    | none => exact .inr rfl
    | some j =>
      obtain rfl : j = i := hown _ hdelete j hget
      obtain ⟨d, hd, hlt⟩ := Expiring.get?_eq_some.1 hget
      obtain rfl := (h.own _ _ _ hd).2.2 ends (by rw [hp]; rfl)
      exact .inl hlt

/-- A step that leaves the keys. -/
theorem Orderly.follows (h : Orderly use c) (hshared : c'.shared = c.shared) (hi : c'.loc i = q)
    (hother : ∀ j, j ≠ i → c'.loc j = c.loc j) (hq : Follows (c.loc i) q) : Orderly use c' := by
  have hloc : ∀ j, c'.loc j = c.loc j ∨ j = i ∧ c'.loc j = q := by
    intro j
    by_cases hj : j = i
    · exact .inr ⟨hj, hj ▸ hi⟩
    · exact .inl (hother j hj)
  refine ⟨fun j ends hin => ?_, fun j ends hends hlt => ?_, fun k j d hk => ?_⟩
  · rw [hshared]
    rcases hloc j with hj | ⟨rfl, hj⟩
    · exact h.inTime j ends (hj ▸ hin)
    · exact h.inTime j ends (hq.inside ends (hj ▸ hin))
  · rw [hshared] at hlt ⊢
    rcases hloc j with hj | ⟨rfl, hj⟩
    · exact h.held j ends (hj ▸ hends) hlt
    · exact h.held j ends (hq.ends ends (hj ▸ hends)) hlt
  · rw [hshared] at hk
    obtain ⟨hkey, hstart, hd⟩ := h.own k j d hk
    rcases hloc j with hj | ⟨rfl, hj⟩
    · rw [hj]
      exact ⟨hkey, hstart, hd⟩
    · rw [hj]
      exact ⟨hkey, hq.started, fun ends hends => hd ends (hq.ends ends hends)⟩

variable [DecidableEq ι]

/-- A client that finds its key free sets it. -/
theorem Orderly.set (h : Orderly use c) (hstart : c.loc i = .start) (hlt : c.shared.now < ends)
    (hfree : c.shared.keys.get? c.shared.now (use i).key = none)
    (hnow : c'.shared.now = c.shared.now)
    (hkeys : c'.shared.keys = c.shared.keys.set (use i).key i ends)
    (hi : c'.loc i = q) (hother : ∀ j, j ≠ i → c'.loc j = c.loc j) (hq : q ≠ .start)
    (hends : q = .inside ends ∨ q.ends = none) : Orderly use c' := by
  have hsame : ∀ d, q.ends = some d → d = ends := by
    intro d hd
    rcases hends with rfl | hnone
    · exact (Option.some.inj hd).symm
    · rw [hnone] at hd
      cases hd
  refine ⟨fun j d hin => ?_, fun j d hd hlt' => ?_, fun k j d hk => ?_⟩
  · rw [hnow]
    by_cases hj : j = i
    · rw [hj, hi] at hin
      rw [hsame d (ends_of_inside? hin)]
      exact hlt
    · rw [hother j hj] at hin
      exact h.inTime j d hin
  · rw [hnow] at hlt'
    rw [hkeys]
    by_cases hj : j = i
    · rw [hj, hi] at hd
      rw [hj, hsame d hd]
      exact Expiring.set_self _ _ _ _
    · rw [hother j hj] at hd
      have hheld := h.held j d hd hlt'
      have hne : (use j).key ≠ (use i).key := by
        intro heq
        rw [← heq, Expiring.get?_eq_some.2 ⟨d, hheld, hlt'⟩] at hfree
        cases hfree
      exact (Expiring.set_of_ne _ _ _ hne).trans hheld
  · rw [hkeys] at hk
    by_cases hkey : k = (use i).key
    · subst hkey
      rw [Expiring.set_self, Option.some.injEq, Prod.mk.injEq] at hk
      obtain ⟨rfl, rfl⟩ := hk
      rw [hi]
      exact ⟨rfl, hq, fun d hd => (hsame d hd).symm⟩
    · rw [Expiring.set_of_ne _ _ _ hkey] at hk
      have hown := h.own k j d hk
      have hj : j ≠ i := by
        rintro rfl
        exact hown.2.1 hstart
      rw [hother j hj]
      exact hown

/-- A client deletes its key in time. -/
theorem Orderly.delete (h : Orderly use c) (hmatched : c.loc i = .matched ends)
    (hprompt : c.shared.now < ends ∨ c.shared.keys.get? c.shared.now (use i).key = none)
    (hnow : c'.shared.now = c.shared.now)
    (hkeys : c'.shared.keys = c.shared.keys.delete (use i).key)
    (hi : c'.loc i = .left) (hother : ∀ j, j ≠ i → c'.loc j = c.loc j) : Orderly use c' := by
  refine ⟨fun j d hin => ?_, fun j d hd hlt' => ?_, fun k j d hk => ?_⟩
  · rw [hnow]
    by_cases hj : j = i
    · rw [hj, hi] at hin
      cases hin
    · rw [hother j hj] at hin
      exact h.inTime j d hin
  · rw [hnow] at hlt'
    rw [hkeys]
    by_cases hj : j = i
    · rw [hj, hi] at hd
      cases hd
    · rw [hother j hj] at hd
      have hheld := h.held j d hd hlt'
      -- Another client whose time is not up has its token there, so the delete would find it.
      have hne : (use j).key ≠ (use i).key := by
        intro heq
        rw [heq] at hheld
        rcases hprompt with hlt | hnone
        · rw [h.held i ends (by rw [hmatched]; rfl) hlt, Option.some.injEq, Prod.mk.injEq] at hheld
          exact hj hheld.1.symm
        · rw [Expiring.get?_eq_some.2 ⟨d, hheld, hlt'⟩] at hnone
          cases hnone
      exact (Expiring.delete_of_ne _ hne).trans hheld
  · rw [hkeys] at hk
    by_cases hkey : k = (use i).key
    · subst hkey
      rw [Expiring.delete_self] at hk
      cases hk
    · rw [Expiring.delete_of_ne _ hkey] at hk
      obtain ⟨hown, hstart, hends⟩ := h.own k j d hk
      by_cases hj : j = i
      · exact absurd (hj ▸ hown) hkey
      · rw [hother j hj]
        exact ⟨hown, hstart, hends⟩

end Invariant

/-! ## Runs -/

section Runs

variable [DecidableEq ι] [Ring 𝕜] [LinearOrder 𝕜] [IsStrictOrderedRing 𝕜] {use : ι → Use}
  {c : Conf ι 𝕜} {e : Event ι 𝕜}

/-- What goes on after an event in time. -/
theorem Orderly.event (h : Orderly use c) (htime : InTime c e) (hprompt : Prompt use c e) :
    Orderly use (event use c e) := by
  cases e with
  | time t =>
    exact ⟨htime, fun i ends hends hlt => h.held i ends hends ((le_max_left _ _).trans_lt hlt), h.own⟩
  | client i reply =>
    have hadvance : Lock.event use c (.client i reply) =
        Processes.advance (fun j => next (use j) j reply) c i := rfl
    have hother : ∀ j, j ≠ i → (Lock.event use c (.client i reply)).loc j = c.loc j := by
      intro j hj
      rw [hadvance, Processes.advance_loc_of_ne c hj]
    have hshared : (Lock.event use c (.client i reply)).shared =
        (next (use i) i reply c.shared (c.loc i)).1 := rfl
    have hloc : (Lock.event use c (.client i reply)).loc i =
        (next (use i) i reply c.shared (c.loc i)).2 := by
      rw [hadvance, Processes.advance_loc_self]
    obtain ⟨q, hnext, hq⟩ | ⟨hstart, httl, hfree, hnext⟩ | ⟨ends, hmatched, hrefused, hnext⟩ :=
      next_cases (use i) i reply c.shared (c.loc i)
    · rw [hnext] at hshared hloc
      exact h.follows hshared hloc hother hq
    · rw [hnext] at hshared hloc
      have hlt : c.shared.now < c.shared.now + ((use i).ttlSeconds : 𝕜) :=
        lt_add_of_pos_right _ (Int.cast_pos.2 httl)
      exact h.set hstart hlt hfree (by rw [hshared]) (by rw [hshared]) hloc hother
        (entered_ne_start _ _ _) (entered_true _ _)
    · rw [hnext] at hshared hloc
      have hdelete := deletes_eq_some.2 ⟨reply, rfl, hrefused, hmatched⟩
      exact h.delete hmatched (hprompt _ hdelete) (by rw [hshared]) (by rw [hshared]) hloc hother

/-- In a run in which every client leaves its block in time, the lock excludes and no client deletes
another one's key, exactly if each delete is carried out in time too or finds the key free. -/
theorem excludes_iff (use : ι → Use) (now : 𝕜) (es : List (Event ι 𝕜))
    (htime : Stepwise (Lock.event use) InTime (start now) es) :
    Throughout (Lock.event use) (Exclusive use) (start now) es ∧
        Stepwise (Lock.event use) (OwnDelete use) (start now) es ↔
      Stepwise (Lock.event use) (Prompt use) (start now) es := by
  have hexclusive : ∀ c : Conf ι 𝕜, Orderly use c → Exclusive use c := fun _ h => h.exclusive
  have hkeep : ∀ (c : Conf ι 𝕜) (e : Event ι 𝕜), Orderly use c → InTime c e ∧ Prompt use c e →
      Orderly use (Lock.event use c e) ∧ InTime c e ∧ OwnDelete use c e :=
    fun _ _ h hok => ⟨h.event hok.1 hok.2, hok.1, h.prompt_iff.1 hok.2⟩
  have hbreak : ∀ (c : Conf ι 𝕜) (e : Event ι 𝕜), Orderly use c →
      Exclusive use (Lock.event use c e) → InTime c e ∧ OwnDelete use c e →
      InTime c e ∧ Prompt use c e :=
    fun _ _ h _ hq => ⟨hq.1, h.prompt_iff.2 hq.2⟩
  have hiff := throughout_and_stepwise_iff_of_inductive hexclusive hkeep hbreak
    (orderly_start use now) es
  rw [stepwise_and, stepwise_and, and_iff_right htime, and_iff_right htime] at hiff
  exact hiff

end Runs

/-! ## Three clients -/

/-- Three clients that take one lock for ten seconds each. -/
def threeClients (_ : Fin 3) : Use := { name := "payout", ttlSeconds := 10 }

/-- The first client leaves after nine seconds, and the second takes the lock after it. -/
def inTurn : List (Event (Fin 3) ℚ) :=
  [.client 0 .answered, .client 1 .answered, .time 9, .client 0 .answered, .client 0 .answered,
    .client 0 .answered, .client 2 .answered]

theorem inTurn_excludes :
    Throughout (event threeClients) (Exclusive threeClients) (start 0) inTurn ∧
      Stepwise (event threeClients) (OwnDelete threeClients) (start 0) inTurn :=
  (excludes_iff threeClients 0 inTurn (by decide +kernel)).2 (by decide +kernel)

/-- The key expires after the first client has read it.  The second client sets it, the first one
deletes it, and the third sets it again. -/
def tooLate : List (Event (Fin 3) ℚ) :=
  [.client 0 .answered, .time 9, .client 0 .answered, .client 0 .answered, .time 10,
    .client 1 .answered, .client 0 .answered, .client 2 .answered]

theorem tooLate_admits_two :
    Stepwise (event threeClients) InTime (start 0) tooLate ∧
      ¬ Throughout (event threeClients) (Exclusive threeClients) (start 0) tooLate ∧
      ¬ Stepwise (event threeClients) (OwnDelete threeClients) (start 0) tooLate := by
  refine ⟨by decide +kernel, fun h => ?_, by decide +kernel⟩
  have hfinal := h.final
  revert hfinal
  decide +kernel

end Lock

end Redis

end SweetCrust
